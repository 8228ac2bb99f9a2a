/-
A volume is a memory of bytes: along every run of reads and writes at any offset and of any length,
each read returns the last value written to each byte. That is so while the offsets in a SCO and
the SCO numbers do not wrap; a SCO multiplier of 65536 lets the volume overwrite a SCO in place.
-/
import VolumeDriver.Volume.ReadBack

namespace VolumeDriver

open Lib

namespace ByteSemantics

open ReadWrite ReadBack
open DataStoreNG (Consistent Room)
open Nat

section
variable (cfg : Config)

/-- The clusters of a memory. -/
def clusters (memory : Nat → UInt8) (ca : ClusterAddress) : Bytes := slice memory (ca * cfg.volume.cs) cfg.volume.cs

/-- The number of clusters of a request. -/
def nclusters (off len : Nat) : Nat := blocks cfg.volume.cs (off % cfg.volume.cs + len)

/-- The size of the volume is a whole number of clusters (`VolumeConfig::verify_`), the DTL takes
entries, and every cluster address fits into a TLog entry. -/
structure Regular : Prop where
  whole : cfg.volume.cs ∣ cfg.volume.getSize
  dtl : 0 < cfg.max_entries
  addressable : cfg.volume.getSize ≤ 2 ^ 35 * cfg.volume.cs

/-! ## Requests inside the volume -/

section
variable {cfg} (hcfg : Regular cfg) {off len : Nat} (hin : off + len ≤ cfg.volume.getSize)

include hcfg hin in
theorem end_le : (off / cfg.volume.cs + nclusters cfg off len) * cfg.volume.cs ≤ cfg.volume.getSize := by
  have hc := cfg.volume.cs_pos
  obtain ⟨k, hk⟩ := hcfg.whole
  have hround := blocks_mul_lt (x := off % cfg.volume.cs + len) hc
  have hoff := div_add_mod' off cfg.volume.cs
  rw [mul_comm] at hk
  by_contra hlt
  have hle : k + 1 ≤ off / cfg.volume.cs + nclusters cfg off len := by
    by_contra hn
    exact hlt (hk ▸ mul_le_mul_right _ (show off / cfg.volume.cs + nclusters cfg off len ≤ k by omega))
  have hmul := mul_le_mul_right cfg.volume.cs hle
  rw [add_mul, add_mul, one_mul] at hmul
  unfold nclusters at hmul
  omega

theorem within : off % cfg.volume.cs + len ≤ nclusters cfg off len * cfg.volume.cs := le_blocks_mul cfg.volume.cs_pos

include hcfg hin in
theorem round_lt : nclusters cfg off len * cfg.volume.cs < 2 ^ 64 := by
  have hend := end_le hcfg hin
  have hsize := cfg.volume.getSize_lt
  rw [add_mul] at hend
  omega

include hin in
theorem aligned_off_eq : Access.aligned_off cfg.volume off = off / cfg.volume.cs * cfg.volume.cs := by
  have := cfg.volume.getSize_lt
  exact Access.aligned_off_eq cfg.volume (by omega)

include hcfg hin in
theorem aligned_len_eq : Access.aligned_len cfg.volume off len = nclusters cfg off len * cfg.volume.cs := by
  have := cfg.volume.getSize_lt
  exact Access.aligned_len_eq cfg.volume (by omega) (round_lt hcfg hin)

include hin in
theorem validateIOLength_ok (s : Disk) : validateIOLength cfg off len s = .ok () s := by
  have := cfg.volume.getSize_lt
  unfold validateIOLength
  rw [if_pos (by rw [mod_eq_of_lt (by omega)]; exact hin)]
  rfl

theorem validateIOAlignment_ok (a n : Nat) (s : Disk) :
    validateIOAlignment cfg (a * cfg.volume.cs) (n * cfg.volume.cs) s = .ok () s := by
  unfold validateIOAlignment
  rw [if_neg (by rw [mul_mod_left]; exact fun h => h rfl), if_neg (by rw [mul_mod_left]; exact fun h => h rfl)]
  rfl

theorem map_clusterAddresses {a n : Nat} (h : (a + n) * cfg.volume.cs < 2 ^ 64) (content : ClusterAddress → Bytes) :
    (Access.clusterAddresses cfg.volume (a * cfg.volume.cs) (n * cfg.volume.cs)).map content = slice content a n := by
  unfold Access.clusterAddresses slice
  rw [blocks_mul_self cfg.volume.cs_pos, List.map_map]
  refine List.map_congr_left fun i hi => ?_
  have hi' := List.mem_range.mp hi
  have hlt := Nat.mul_le_mul_right cfg.volume.cs (show a + i ≤ a + n by omega)
  have haddr := Access.addr2CA_mul cfg.volume (Nat.lt_of_le_of_lt hlt h)
  have hsplit := Nat.add_mul a i cfg.volume.cs
  rw [Nat.mod_eq_of_lt (show a * cfg.volume.cs < 2 ^ 64 by omega)] at haddr
  exact congrArg content haddr

end

/-! ## One request -/

variable (W : Set Bytes)

section
variable {cfg W} (hcfg : Regular cfg) (hW : Collisionless cfg W) {memory : Nat → UInt8} {off len r : Nat}

include hcfg hW in
theorem read_triple (hin : off + len ≤ cfg.volume.getSize) :
    Triple (Inv cfg W (clusters cfg memory) r) (ReadWrite.read cfg off len)
      (fun bytes s => bytes = slice memory off len ∧ Inv cfg W (clusters cfg memory) r s) (fun _ => False) := by
  intro s h
  have hend := end_le hcfg hin
  have hsize := cfg.volume.getSize_lt
  have hoff := div_add_mod' off cfg.volume.cs
  unfold ReadWrite.read
  rw [run_bind (validateIOLength_ok hin s), aligned_off_eq hin, aligned_len_eq hcfg hin,
    run_bind (validateIOAlignment_ok _ _ s)]
  obtain ⟨r', s', hread, rfl, hs'⟩ := (readClusters_triple hW h.stored (off / cfg.volume.cs * cfg.volume.cs)
    (nclusters cfg off len * cfg.volume.cs)).ok h.holding
  rw [run_bind hread, map_clusterAddresses (by omega)]
  have hflat : (slice (clusters cfg memory) (off / cfg.volume.cs) (nclusters cfg off len)).flatten =
      slice memory (off / cfg.volume.cs * cfg.volume.cs) (nclusters cfg off len * cfg.volume.cs) := flatten_slices _ _
  have hinv := hs'.inv h.stored h.writable
  rw [hflat]
  by_cases haligned : Aligned cfg off len
  · -- the request is read in place
    rw [if_pos haligned]
    obtain ⟨ho, hl⟩ := haligned
    rw [aligned_off_eq hin] at ho
    rw [aligned_len_eq hcfg hin] at hl
    refine ⟨?_, hinv⟩
    rw [ho, hl]
  · rw [if_neg haligned, take_drop_slice within, hoff]
    exact ⟨rfl, hinv⟩

theorem store_clusters {memory' : Nat → UInt8} {a n : Nat}
    (h : ∀ x, x < a * cfg.volume.cs ∨ (a + n) * cfg.volume.cs ≤ x → memory' x = memory x) :
    store (clusters cfg memory) a (slice (clusters cfg memory') a n) = clusters cfg memory' := by
  funext ca
  rcases store_cases (clusters cfg memory) a (slice (clusters cfg memory') a n) ca with ⟨i, hi, rfl, heq⟩ | ⟨hout, heq⟩
  · rw [heq]
    simp [slice]
  · rw [heq]
    rw [length_slice] at hout
    refine (slice_congr fun i hi => h _ ?_).symm
    rcases hout with hlt | hle
    · have := mul_le_mul_right cfg.volume.cs (show ca + 1 ≤ a from hlt)
      rw [add_mul, one_mul] at this
      exact .inl (by omega)
    · have := mul_le_mul_right cfg.volume.cs hle
      exact .inr (by omega)

include hcfg hW in
theorem write_aligned_triple {memory' : Nat → UInt8} {a n : Nat} (hin : (a + n) * cfg.volume.cs ≤ cfg.volume.getSize)
    (hsame : ∀ x, x < a * cfg.volume.cs ∨ (a + n) * cfg.volume.cs ≤ x → memory' x = memory x)
    (hclusters : cfg.mode = .ContentBased → ∀ i < n, clusters cfg memory' (a + i) ∈ W) :
    Triple (Inv cfg W (clusters cfg memory) n)
      (write_aligned_ cfg (a * cfg.volume.cs) (slice memory' (a * cfg.volume.cs) (n * cfg.volume.cs)))
      (fun _ => Inv cfg W (clusters cfg memory') 0) (fun _ => False) := by
  have hc := cfg.volume.cs_pos
  have hchunks : chunks cfg.volume.cs n (slice memory' (a * cfg.volume.cs) (n * cfg.volume.cs)) =
      slice (clusters cfg memory') a n := chunks_slice a n
  have hca : a + n ≤ 2 ^ 35 := Nat.le_of_mul_le_mul_right (Nat.le_trans hin hcfg.addressable) hc
  have hstore := store_clusters hsame
  have hchunk := writeChunks_triple hW hcfg.dtl (2 * n) a (slice (clusters cfg memory') a n) (clusters cfg memory)
    (by rw [length_slice]; omega) (by rw [length_slice]; exact hca) (by
      intro hmode data hdata
      obtain ⟨i, hi, rfl⟩ := List.mem_map.mp hdata
      exact hclusters hmode i (List.mem_range.mp hi))
  rw [hstore, length_slice] at hchunk
  intro s h
  unfold write_aligned_
  rw [length_slice, run_bind (validateIOAlignment_ok a n s), Nat.mul_div_cancel n hc, hchunks,
    show Access.addr2CA cfg.volume (a * cfg.volume.cs) = a from Nat.mul_div_cancel a hc]
  exact hchunk s h

include hcfg hW in
theorem write_triple {buf : Bytes} (hin : off + buf.length ≤ cfg.volume.getSize) (hclusters : cfg.mode = .ContentBased →
      ∀ i < nclusters cfg off buf.length, clusters cfg (store memory off buf) (off / cfg.volume.cs + i) ∈ W) :
    Triple (Inv cfg W (clusters cfg memory) (nclusters cfg off buf.length)) (ReadWrite.write cfg off buf)
      (fun _ => Inv cfg W (clusters cfg (store memory off buf)) 0) (fun _ => False) := by
  intro s h
  have hend := end_le hcfg hin
  have hoff := div_add_mod' off cfg.volume.cs
  have hwithin : off % cfg.volume.cs + buf.length ≤ nclusters cfg off buf.length * cfg.volume.cs := within
  have hmul := add_mul (off / cfg.volume.cs) (nclusters cfg off buf.length) cfg.volume.cs
  -- bytes outside the clusters of the request are outside the request
  have hsame : ∀ x, x < off / cfg.volume.cs * cfg.volume.cs ∨
      (off / cfg.volume.cs + nclusters cfg off buf.length) * cfg.volume.cs ≤ x → store memory off buf x = memory x := by
    intro x hx
    apply store_of_outside
    omega
  have hwrite := write_aligned_triple hcfg hW hend hsame hclusters
  unfold ReadWrite.write
  rw [run_bind (validateIOLength_ok hin s)]
  by_cases haligned : Aligned cfg off buf.length
  · obtain ⟨ho, hl⟩ := id haligned
    rw [aligned_off_eq hin] at ho
    rw [aligned_len_eq hcfg hin] at hl
    -- the buffer is what the memory holds afterwards
    have hbuf : buf = slice (store memory off buf) (off / cfg.volume.cs * cfg.volume.cs)
        (nclusters cfg off buf.length * cfg.volume.cs) := by
      rw [ho, hl, slice_store_self]
    rw [if_pos haligned, aligned_off_eq hin]
    have hrun := hwrite s h
    rw [← hbuf] at hrun
    exact hrun
  · rw [if_neg haligned, aligned_off_eq hin, aligned_len_eq hcfg hin]
    have hbounce : off / cfg.volume.cs * cfg.volume.cs + nclusters cfg off buf.length * cfg.volume.cs ≤
      cfg.volume.getSize := by omega
    obtain ⟨_, s', hread, rfl, hinv⟩ := (read_triple hcfg hW hbounce).ok h
    rw [run_bind hread, overwrite_slice hwithin, hoff]
    exact hwrite s' hinv

end

/-! ## Runs -/

/-- What an action returns if the volume is a memory. -/
def expected (memory : Nat → UInt8) : Action → Bytes
  | .read off len => slice memory off len
  | .write _ _ => []

/-- The action returns what it should. -/
def Right (s : Disk × (Nat → UInt8)) (a : Action) : Prop := result (a.exec cfg) s.1 = some (expected s.2 a)

/-- The request lies inside the volume. A write does not run out of SCO numbers, and by content its
clusters are among those that have different hashes. -/
def Fits (s : Disk × (Nat → UInt8)) : Action → Prop
  | .read off len => off + len ≤ cfg.volume.getSize
  | .write off buf =>
    off + buf.length ≤ cfg.volume.getSize ∧
      s.1.volume.dataStore_.number +
        (s.1.volume.dataStore_.offset + nclusters cfg off buf.length) / s.1.volume.dataStore_.sco_mult_ < 2 ^ 32 ∧
      (cfg.mode = .ContentBased → ∀ i < nclusters cfg off buf.length,
        clusters cfg (store s.2 off buf) (off / cfg.volume.cs + i) ∈ W)

section
variable {cfg W} (hcfg : Regular cfg) (hW : Collisionless cfg W)

theorem init_inv {sco_mult : Nat} (hpos : 0 < sco_mult) (hlt : sco_mult < 2 ^ 16) :
    Inv cfg W (clusters cfg fun _ => 0) 0 (init sco_mult) where
  stored := by
    intro ca
    refine .inl ⟨rfl, ?_⟩
    simp [clusters, slice, List.map_const']
  cached := fun _ => ⟨fun _ ca data h => (by cases h), fun w data h => (by cases h)⟩
  writable := by
    refine ⟨⟨rfl, Nat.one_pos, ?_, ?_, fun _ => rfl, fun h => (by cases h), fun h => (by cases h)⟩,
      ⟨hpos, hlt, Nat.zero_le _, ?_⟩, hpos, rfl⟩
    · show 1 < 2 ^ 32
      decide
    · show 0 < 2 ^ 16
      decide
    · show 1 + (0 + 0) / sco_mult < 2 ^ 32
      rw [Nat.zero_div]
      decide

theorem Inv.grow {content : ClusterAddress → Bytes} {s : Disk} {r : Nat} (h : Inv cfg W content 0 s)
    (hroom : s.volume.dataStore_.number + (s.volume.dataStore_.offset + r) / s.volume.dataStore_.sco_mult_ < 2 ^ 32) :
    Inv cfg W content r s :=
  ⟨h.stored, h.cached, h.writable.consistent, { h.writable.room with room := hroom }, h.writable.offset_lt,
    h.writable.creates⟩

include hcfg hW in
theorem step_right (s : Disk × (Nat → UInt8)) (a : Action) (h : Inv cfg W (clusters cfg s.2) 0 s.1)
    (hfits : Fits cfg W s a) :
    Right cfg s a ∧ Inv cfg W (clusters cfg (step cfg s a).2) 0 (step cfg s a).1 := by
  unfold Right step
  cases a with
  | read off len =>
    obtain ⟨bytes, s', hrun, rfl, hinv⟩ := (read_triple hcfg hW hfits).ok h
    have hexec : (Action.read off len).exec cfg s.1 = .ok (slice s.2 off len) s' := hrun
    rw [result_ok hexec, after_ok hexec]
    exact ⟨rfl, hinv⟩
  | write off buf =>
    obtain ⟨hin, hroom, hclusters⟩ := hfits
    obtain ⟨u, s', hrun, hinv⟩ := (write_triple hcfg hW hin hclusters).ok (Inv.grow h hroom)
    have hexec : (Action.write off buf).exec cfg s.1 = .ok [] s' := run_bind hrun
    rw [result_ok hexec, after_ok hexec]
    exact ⟨rfl, hinv⟩

end

end

/-- Every read returns the last value written to each byte, along every run in which the offsets
in a SCO and the SCO numbers do not wrap. -/
theorem reads_return_last_write (cfg : Config) (W : Set Bytes) (hcfg : Regular cfg) (hW : Collisionless cfg W)
    {sco_mult : Nat} (hpos : 0 < sco_mult) (hlt : sco_mult < 2 ^ 16) (as : List Action)
    (hfits : Each (step cfg) (Fits cfg W) (init sco_mult, fun _ => 0) as) :
    Each (step cfg) (Right cfg) (init sco_mult, fun _ => 0) as :=
  each_imp (fun s => Inv cfg W (clusters cfg s.2) 0 s.1) (step_right hcfg hW) (init_inv hpos hlt) hfits

namespace Sample

/-- Four clusters of two bytes, cached by their content when they are written. -/
def cfg : Config where
  volume := { lba_count := 4, lba_size := 2, clusterSize_ := 2, clusterSize_pos := by decide }
  sums := { Sums.lengths with md5 := fun data => BitVec.ofNat 128 (ofLE data) }
  max_entries := 1
  mode := .ContentBased
  behaviour := .CacheOnWrite
  same_cluster_size := true

/-- A write that starts and ends inside a cluster, and a read of the whole volume. -/
def requests : List Action := [.write 1 [7, 8], .read 0 8]

/-- Its clusters. -/
def written : List Bytes := [[0, 7], [8, 0]]

theorem written_injOn : ∀ a ∈ written, ∀ b ∈ written, cfg.sums.md5 a = cfg.sums.md5 b → a = b := by decide

end Sample

theorem reads_return_last_write_small :
    Each (step Sample.cfg) (Right Sample.cfg) (init 2, fun _ => 0) Sample.requests :=
  reads_return_last_write Sample.cfg {data | data ∈ Sample.written} ⟨by decide, by decide, by decide⟩
    ⟨fun a ha b hb => Sample.written_injOn a ha b hb, fun _ _ h => (by cases h)⟩ (by decide) (by decide) Sample.requests
    ⟨⟨by decide, by decide, by decide⟩, (by decide : (0 : Nat) + 8 ≤ 8), trivial⟩

/-! ## A SCO of 65536 clusters -/

section
variable {cfg : Config} {W : Set Bytes} (hcfg : Regular cfg) (hW : Collisionless cfg W) {d : DataStoreNG Bytes}
  {m : ClusterMap} {content : ClusterAddress → Bytes}

include hcfg hW in
theorem write_one_chunk {a n : Nat} {buf : Bytes} {cs : List Bytes} (hlen : buf.length = n * cfg.volume.cs)
    (hcs : chunks cfg.volume.cs n buf = cs) (hpos : 0 < n)
    (hin : (a + n) * cfg.volume.cs ≤ cfg.volume.getSize) (hmax : n ≤ cfg.max_entries)
    (hmode : cfg.mode = .LocationBased) (hchunk : n ≤ d.getRemainingSCOCapacity) (hnumber : 0 < d.number)
    (hopen : d.CanWrite)
    (hcap : (d.ready.written cs).getRemainingSCOCapacity ≠ 0) :
    Triple (Holding cfg W d m content) (ReadWrite.write cfg (a * cfg.volume.cs) buf)
      (fun _ => Holding cfg W (d.ready.written cs) (store m a (recorded cfg d cs)) (store content a cs))
      (fun _ => False) := by
  have hc := cfg.volume.cs_pos
  have hmul := Nat.add_mul a n cfg.volume.cs
  have hca : a + n ≤ 2 ^ 35 := Nat.le_of_mul_le_mul_right (Nat.le_trans hin hcfg.addressable) hc
  have hin' : a * cfg.volume.cs + buf.length ≤ cfg.volume.getSize := by omega
  have hblocks : nclusters cfg (a * cfg.volume.cs) buf.length = n := by
    rw [nclusters, Nat.mul_mod_left, Nat.zero_add, hlen, blocks_mul_self hc]
  have hoff : Access.aligned_off cfg.volume (a * cfg.volume.cs) = a * cfg.volume.cs := by
    rw [aligned_off_eq hin', Nat.mul_div_cancel a hc]
  have haligned : Aligned cfg (a * cfg.volume.cs) buf.length :=
    ⟨hoff, by rw [aligned_len_eq hcfg hin', hblocks, hlen]⟩
  have hcslen : cs.length = n := by rw [← hcs, length_chunks]
  have hne : cs ≠ [] := by
    rw [← List.length_pos_iff, hcslen]
    exact hpos
  have hrolled : rolled (d.ready.written cs) = d.ready.written cs := by rw [rolled, if_neg hcap]
  intro s h
  obtain ⟨u, s', hrun, hs'⟩ := (writeClusters_triple hW a cs hnumber (by omega)
    (fun h => (by rw [hmode] at h; cases h)) hopen fun h => absurd h hcap).ok h
  rw [hrolled] at hs'
  unfold ReadWrite.write
  rw [run_bind (validateIOLength_ok hin' s), if_pos haligned, hoff]
  unfold write_aligned_
  rw [hlen, run_bind (validateIOAlignment_ok a n s), Nat.mul_div_cancel n hc, hcs,
    show Access.addr2CA cfg.volume (a * cfg.volume.cs) = a from Nat.mul_div_cancel a hc]
  obtain ⟨turns, hturns⟩ : ∃ turns, 2 * n = turns + 1 + 1 := ⟨2 * n - 2, by omega⟩
  rw [hturns, writeChunks, run_get_bind, if_pos hne]
  have hverify : onVolume (Volume.verify (0 < cfg.max_entries) "dtl_cap > 0") s = .ok () s := by
    refine onVolume_ok (v := s.volume) ?_
    rw [Volume.verify, if_pos (by omega)]
    rfl
  have hmin : min cs.length (min cfg.max_entries s.volume.dataStore_.getRemainingSCOCapacity) = cs.length := by
    rw [h.ds]
    omega
  rw [run_bind hverify, hmin, List.take_length, List.drop_length, run_bind hrun]
  exact hs'

end

namespace Sample

/-- 65537 clusters of 512 bytes, without cluster cache. -/
def large : Config where
  volume := { lba_count := 65537, lba_size := 512, clusterSize_ := 512, clusterSize_pos := by decide }
  sums := cfg.sums
  max_entries := 65536
  mode := .LocationBased
  behaviour := .NoCache
  same_cluster_size := false

theorem large_regular : Regular large := ⟨by decide, by decide, by decide⟩

theorem large_collisionless : Collisionless large ∅ := ⟨Set.injOn_empty _, fun _ _ h => (by cases h)⟩

theorem read_first {s : Disk} {weed : Weed} {cluster : Bytes} {rest : List Bytes} {byte : UInt8} {bytes : Bytes}
    (hm : s.volume.metaDataStore_ 0 = ⟨⟨⟨1, 0, 0⟩, 0⟩, weed⟩) (hscos : s.volume.dataStore_.scos 1 = cluster :: rest)
    (hcluster : cluster = byte :: bytes) : result (ReadWrite.read large 0 1) s = some [byte] := by
  have hin : 0 + 1 ≤ large.volume.getSize := by decide
  have hlookups : lookups large (Access.clusterAddresses large.volume 0 512) s =
      .ok [.descriptor ⟨⟨⟨1, 0, 0⟩, 0⟩, weed⟩] s := by
    have hlookup : lookup large 0 s = .ok (.descriptor ⟨⟨⟨1, 0, 0⟩, 0⟩, weed⟩) s := by
      unfold lookup
      rw [run_get_bind, hm]
      rfl
    exact (run_bind hlookup).trans rfl
  have hread : DataStoreNG.readClusters [⟨⟨⟨⟨1, 0, 0⟩, 0⟩, weed⟩, 0, 0⟩] s.volume.dataStore_ =
      .ok [cluster] s.volume.dataStore_ := by
    have hhas : ∀ c ∈ [(⟨⟨⟨⟨1, 0, 0⟩, 0⟩, weed⟩, 0, 0⟩ : ClusterReadDescriptor)],
        DataStoreNG.Has s.volume.dataStore_ (fun _ => cluster) c := by
      intro c hc
      obtain rfl := List.mem_singleton.mp hc
      show (s.volume.dataStore_.scos 1)[0]? = some cluster
      rw [hscos]
      rfl
    exact DataStoreNG.readClusters_ok hhas
  have hclusters : readClusters_ large 0 512 s = .ok [cluster] s := by
    unfold readClusters_
    rw [run_bind hlookups]
    exact (run_bind (onVolume_ok (Volume.ds_ok hread))).trans rfl
  have hrun : ReadWrite.read large 0 1 s = .ok [byte] s := by
    refine (run_bind hclusters).trans ?_
    rw [if_neg (by decide), hcluster]
    rfl
  exact result_ok hrun

/-- The 65536 clusters of `buf` fill SCO 1, and one more cluster is written behind them. -/
def overflow (buf last : Bytes) : List Action := [.write 0 buf, .write (65536 * 512) last]

/-- SCO 1 with 65536 clusters; the offset is 0 again. -/
def full (cs : List Bytes) : DataStoreNG Bytes := ({ sco_mult_ := 65536 } : DataStoreNG Bytes).ready.written cs

variable {cs : List Bytes}

theorem capacity_full (hcs : cs.length = 65536) : (full cs).getRemainingSCOCapacity = 65536 := by
  show (65536 + 2 ^ 32 - (0 + cs.length) % 2 ^ 16) % 2 ^ 32 = 65536
  omega

theorem scos_full (hcs : cs.length = 65536) (cluster : Bytes) :
    ((full cs).ready.written [cluster]).scos 1 = cluster :: ((full cs).scos 1).drop 1 := by
  have hopen : (full cs).current_open = true := rfl
  have hoff : (full cs).offset = 0 := by
    show (0 + cs.length) % 2 ^ 16 = 0
    omega
  show Function.update (full cs).scos 1 (DataStoreNG.pwrite ((full cs).scos 1) (full cs).offset [cluster]) 1 = _
  rw [Function.update_self, hoff]
  rfl

theorem recorded_first (hcs : cs.length = 65536) :
    ∃ weed, store (fun _ => .zero) 0 (recorded large { sco_mult_ := 65536 } cs) 0 = ⟨⟨⟨1, 0, 0⟩, 0⟩, weed⟩ := by
  cases cs with
  | nil => cases hcs
  | cons c cs =>
    refine ⟨large.weed c, ?_⟩
    have hlocs : ({ sco_mult_ := 65536 } : DataStoreNG Bytes).locations (c :: cs).length =
        ⟨⟨1, 0, 0⟩, 0⟩ :: (List.range cs.length).map (fun i => ⟨⟨1, 0, 0⟩, (0 + (i + 1)) % 2 ^ 16⟩) := by
      rw [DataStoreNG.locations, List.length_cons, List.range_succ_eq_map, List.map_cons, List.map_map]
      rfl
    unfold recorded
    rw [hlocs, List.zip_cons_cons, List.map_cons, store_cons, store_of_outside (.inl Nat.one_pos), Function.update_self]
    rfl

theorem overflow_read {buf last bytes : Bytes} {byte : UInt8} (hlen : buf.length = 65536 * large.volume.cs)
    (hlast : last.length = large.volume.cs) (hbyte : last = byte :: bytes) :
    result (ReadWrite.read large 0 1) (runs (step large) (init 65536, fun _ => 0) (overflow buf last)).1 =
      some [byte] := by
  have hstart : Holding large ∅ { sco_mult_ := 65536 } (fun _ => .zero) (clusters large fun _ => 0) (init 65536) :=
    ⟨rfl, rfl, fun h => (by cases h)⟩
  have hone : chunks large.volume.cs 1 last = [last] := by
    show [(last.drop (0 * large.volume.cs)).take large.volume.cs] = [last]
    rw [zero_mul, List.drop_zero, List.take_of_length_le (le_of_eq hlast)]
  obtain ⟨cs, hchunks, hcs⟩ : ∃ cs, chunks large.volume.cs 65536 buf = cs ∧ cs.length = 65536 := ⟨_, rfl, length_chunks⟩
  have hcap := capacity_full hcs
  have hcap₁ : (({ sco_mult_ := 65536 } : DataStoreNG Bytes).ready.written cs).getRemainingSCOCapacity ≠ 0 := by
    show (full cs).getRemainingSCOCapacity ≠ 0
    rw [hcap]
    decide
  have hcap₂ : ((full cs).ready.written [last]).getRemainingSCOCapacity ≠ 0 := by
    show (65536 + 2 ^ 32 - ((0 + cs.length) % 2 ^ 16 + [last].length) % 2 ^ 16) % 2 ^ 32 ≠ 0
    rw [hcs, List.length_singleton]
    decide
  obtain ⟨u₁, s₁, h₁, hs₁⟩ := (write_one_chunk (a := 0) large_regular large_collisionless hlen hchunks (by decide)
    (by decide) (by decide) rfl (by decide) (by decide) (.inr rfl) hcap₁).ok hstart
  obtain ⟨u₂, s₂, h₂, hs₂⟩ := (write_one_chunk (a := 65536) (d := full cs) large_regular large_collisionless
    (hlast.trans (one_mul _).symm) hone (by decide) (by decide) (by decide) rfl (by rw [hcap]; decide) one_pos
    (.inl rfl) hcap₂).ok hs₁
  obtain ⟨weed, hweed⟩ := recorded_first hcs
  have hrun : (runs (step large) (init 65536, fun _ => 0) (overflow buf last)).1 = s₂ := by
    have e₁ : (Action.write 0 buf).exec large (init 65536) = .ok [] s₁ := run_bind h₁
    have e₂ : (Action.write (65536 * 512) last).exec large s₁ = .ok [] s₂ := run_bind h₂
    show after ((Action.write (65536 * 512) last).exec large)
      (after ((Action.write 0 buf).exec large) (init 65536)) = s₂
    rw [after_ok e₁, after_ok e₂]
  rw [hrun]
  have hm : s₂.volume.metaDataStore_ 0 = ⟨⟨⟨1, 0, 0⟩, 0⟩, weed⟩ := by
    rw [hs₂.metadata, store_of_outside (.inl (by decide))]
    exact hweed
  have hscos : s₂.volume.dataStore_.scos 1 = last :: ((full cs).scos 1).drop 1 := by
    rw [hs₂.ds]
    exact scos_full hcs last
  exact read_first hm hscos hbyte

end Sample

open Sample

/-- All requests are inside the volume; the first byte of the volume was written once, as 1, and is
read as 2. -/
theorem first_cluster_overwritten :
    Each (step large) (fun _ a => match a with
        | .read off len => off + len ≤ large.volume.getSize
        | .write off buf => off + buf.length ≤ large.volume.getSize) (init 65536, fun _ => 0)
        (overflow (List.replicate (65536 * 512) 1) (List.replicate 512 2) ++ [.read 0 1]) ∧
      result (ReadWrite.read large 0 1) (runs (step large) (init 65536, fun _ => 0)
        (overflow (List.replicate (65536 * 512) 1) (List.replicate 512 2))).1 = some [2] ∧
      (runs (step large) (init 65536, fun _ => 0)
        (overflow (List.replicate (65536 * 512) 1) (List.replicate 512 2))).2 0 = 1 := by
  refine ⟨⟨?_, ?_, ?_, trivial⟩, ?_, ?_⟩
  · show 0 + (List.replicate (65536 * 512) (1 : UInt8)).length ≤ _
    rw [List.length_replicate]
    decide
  · show 65536 * 512 + (List.replicate 512 (2 : UInt8)).length ≤ _
    rw [List.length_replicate]
    decide
  · show 0 + 1 ≤ large.volume.getSize
    decide
  · exact overflow_read List.length_replicate List.length_replicate List.replicate_succ
  · show store (store (fun _ => 0) 0 (List.replicate (65536 * 512) (1 : UInt8))) (65536 * 512)
      (List.replicate 512 2) 0 = 1
    rw [store_of_outside (.inl (by decide))]
    have hlt : 0 < (List.replicate (65536 * 512) (1 : UInt8)).length := by
      rw [List.length_replicate]
      decide
    exact (store_of_lt hlt).trans (List.getElem_replicate hlt)

end ByteSemantics

end VolumeDriver
