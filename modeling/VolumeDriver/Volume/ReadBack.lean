/-
A read gives back what was written last. The invariant is about clusters: the location of a cluster
in the metadata is null, and the cluster all zeros, or a SCO has the cluster there; what the cluster
cache has of it is the same. Requests are translated between bytes and clusters on top of that.
-/
import VolumeDriver.Volume.ReadWrite
import VolumeDriver.Volume.TLogRuns

namespace VolumeDriver

open Lib Function List Triple

namespace ReadBack

open DataStoreNG (Consistent Room)
open ReadWrite
open DataStoreNG Volume

/-! ## Locations that were handed out -/

section
variable {D : Type} {d : DataStoreNG D} {l : ClusterLocation} {data : D}

/-- The location comes before the current one, and its SCO has the cluster. -/
structure Holds (d : DataStoreNG D) (l : ClusterLocation) (data : D) : Prop where
  number_pos : 0 < l.sco.number
  before : l.sco.number < d.number ∨ l.sco.number = d.number ∧ l.offset < d.offset
  cluster : (d.scos l.sco.number)[l.offset]? = some data

theorem Holds.not_null (h : Holds d l data) : l.isNull = false := by
  simp only [ClusterLocation.isNull, beq_eq_false_iff_ne]
  exact Nat.ne_of_gt h.number_pos

theorem Holds.written (h : Holds d l data) (hd : Consistent d) (buf : List D) (hfit : d.offset + buf.length < 2 ^ 16) :
    Holds (d.ready.written buf) l data := by
  have hnumber : (d.ready.written buf).number = d.number := number_ready
  have hoffset := offset_ready_written buf hfit
  refine ⟨h.number_pos, ?_, ?_⟩
  · rw [hnumber, hoffset]
    rcases h.before with hlt | ⟨heq, hlt⟩
    · exact .inl hlt
    · exact .inr ⟨heq, Nat.lt_of_lt_of_le hlt (Nat.le_add_right _ _)⟩
  · rcases h.before with hlt | ⟨heq, hlt⟩
    · rw [scos_ready_written_of_ne buf (Nat.ne_of_lt hlt)]
      exact h.cluster
    · -- the current SCO has clusters, so it is open and the new ones go behind them
      have hopen := hd.open_of_offset (Nat.ne_of_gt (Nat.lt_of_le_of_lt (Nat.zero_le _) hlt))
      have hready : d.ready = d := by rw [ready, if_pos hopen]
      have hlen : l.offset < (d.scos d.number).length := by
        rw [hd.content hopen, hd.length hopen]
        exact hlt
      rw [hready, hd.scos_written buf hopen, heq, update_self, List.getElem?_append_left hlen, ← heq]
      exact h.cluster

theorem Holds.next (h : Holds d l data) (hn : d.number + 1 < 2 ^ 32) : Holds d.nextSCO.attempted l data := by
  have hle : l.sco.number ≤ d.number := by
    rcases h.before with hlt | ⟨heq, -⟩
    · exact Nat.le_of_lt hlt
    · exact Nat.le_of_eq heq
  have hnumber : d.nextSCO.attempted.number = d.number + 1 := number_attempted.trans (Nat.mod_eq_of_lt hn)
  refine ⟨h.number_pos, .inl (hnumber ▸ Nat.lt_succ_of_le hle), ?_⟩
  have hne : l.sco.number ≠ d.nextSCO.number := by
    rw [← number_attempted, hnumber]
    exact Nat.ne_of_lt (Nat.lt_succ_of_le hle)
  rw [scos_attempted_of_ne hne]
  exact h.cluster

theorem holds_locations (hd : Consistent d) (buf : List D) (hfit : d.offset + buf.length < 2 ^ 16) :
    ∀ p ∈ (d.locations buf.length).zip buf, Holds (d.ready.written buf) p.1 p.2 := by
  intro p hp
  obtain ⟨i, hi, rfl⟩ := mem_iff_getElem.mp hp
  have hlocs : i < (d.locations buf.length).length := by
    rw [length_zip] at hi
    omega
  have hlt : i < buf.length := by
    rw [length_zip] at hi
    omega
  have hmod : (d.offset + i) % 2 ^ 16 = d.offset + i := Nat.mod_eq_of_lt (by omega)
  have hloc : (d.locations buf.length)[i] = ⟨⟨d.number, 0, 0⟩, d.offset + i⟩ := by
    simp only [DataStoreNG.locations, getElem_map, getElem_range, hmod]
  have hnumber : (d.ready.written buf).number = d.number := number_ready
  have hopen := d.ready_open
  have hready := hd.ready
  have hlen : (d.ready.scos d.number).length = d.offset := by
    have hoffset : d.ready.offset = d.offset := by rw [offset, d.sameLocation_ready.loc]; rfl
    rw [← number_ready, hready.content hopen, hready.length hopen, hoffset]
  rw [getElem_zip, hloc]
  refine ⟨hd.number_pos, .inr ⟨hnumber.symm, ?_⟩, ?_⟩
  · rw [offset_ready_written buf hfit]
    show d.offset + i < d.offset + buf.length
    omega
  · show ((d.ready.written buf).scos d.number)[d.offset + i]? = some buf[i]
    rw [hready.scos_written buf hopen, number_ready, update_self,
      List.getElem?_append_right (by omega), hlen, Nat.add_sub_cancel_left, List.getElem?_eq_getElem hlt]

end

/-! ## The clusters of the volume -/

section
variable (cfg : Config) (W : Set Bytes)

/-- `W` has the clusters that other volumes put into the cluster cache, and no two of its clusters
have the same hash. -/
structure Collisionless : Prop where
  injOn : Set.InjOn cfg.sums.md5 W
  others : ∀ i, ∀ data ∈ cfg.surroundings.others i, data ∈ W

/-- What a location with its hash stands for. -/
def Represents (d : DataStoreNG Bytes) (l : ClusterLocationAndHash) (data : Bytes) : Prop :=
  l.isNull = true ∧ data = List.replicate cfg.volume.cs 0 ∨
    Holds d l.clusterLocation data ∧ l.weed = cfg.weed data ∧ (cfg.mode = .ContentBased → data ∈ W)

/-- The data store and the metadata `m` have the clusters `content`. -/
def Stored (d : DataStoreNG Bytes) (m : ClusterMap) (content : ClusterAddress → Bytes) : Prop :=
  ∀ ca, Represents cfg W d (m ca) (content ca)

/-- What the cluster cache has of the volume is right, if it is used at all. -/
def Cached (content : ClusterAddress → Bytes) (c : ClusterCache Bytes) : Prop :=
  cfg.same_cluster_size = true → ClusterCache.Sound cfg.sums.md5 cfg.mode W content c.map

/-- The data store, the metadata, and clusters that the cluster cache agrees with. -/
structure Holding (d : DataStoreNG Bytes) (m : ClusterMap) (content : ClusterAddress → Bytes)
    (s : Disk) : Prop where
  ds : s.volume.dataStore_ = d
  metadata : s.volume.metaDataStore_ = m
  cached : Cached cfg W content s.clusterCache

section
variable {cfg W} {d d' : DataStoreNG Bytes} {m : ClusterMap}
  {content : ClusterAddress → Bytes} {ca : ClusterAddress}

theorem Stored.of_not_null (h : Stored cfg W d m content) (hnull : ¬ (m ca).isNull = true) :
    Holds d (m ca).clusterLocation (content ca) ∧ (m ca).weed = cfg.weed (content ca) ∧
      (cfg.mode = .ContentBased → content ca ∈ W) := by
  rcases h ca with ⟨hn, -⟩ | h
  · exact absurd hn hnull
  · exact h

theorem Represents.mono {l : ClusterLocationAndHash} {data : Bytes} (h : Represents cfg W d l data)
    (hkeep : ∀ l data, Holds d l data → Holds d' l data) : Represents cfg W d' l data := by
  rcases h with hnull | ⟨hloc, hrest⟩
  · exact .inl hnull
  · exact .inr ⟨hkeep _ _ hloc, hrest⟩

theorem weed_of_contentBased (hmode : cfg.mode = .ContentBased) (data : Bytes) : cfg.weed data = cfg.sums.md5 data := by
  unfold Config.weed
  rw [hmode]

/-! ## Reading -/

section
variable (hW : Collisionless cfg W) (hs : Stored cfg W d m content)

include hW in
theorem find_triple (ca : ClusterAddress) {weed : Weed}
    (hweed : cfg.mode = .ContentBased → weed = cfg.sums.md5 (content ca) ∧ content ca ∈ W) :
    Triple (Holding cfg W d m content) (find_in_cluster_cache_ cfg ca weed)
      (fun r s => (∀ data, r = some data → data = content ca) ∧ Holding cfg W d m content s) (fun _ => False) := by
  refine get_bind fun s h => ite (fun hsize => ?_) fun _ => pure ?_
  · rintro _ rfl
    have hcache := h.cached hsize
    exact ⟨fun data hdata => hcache.read_eq hW.others hW.injOn hweed hdata, h.ds, h.metadata,
      fun _ => hcache.elapse hW.others⟩
  · rintro _ rfl
    exact ⟨fun data hdata => (by cases hdata), h⟩

/-- What the first loop may find out about the cluster at `ca`. -/
def Tells (m : ClusterMap) (content : ClusterAddress → Bytes) (ca : ClusterAddress) :
    Found → Prop
  | .cluster data => data = content ca
  | .descriptor l => l = m ca ∧ ¬ l.isNull = true

include hW hs in
theorem lookup_triple (ca : ClusterAddress) : Triple (Holding cfg W d m content) (lookup cfg ca)
      (fun found s => Tells m content ca found ∧ Holding cfg W d m content s) (fun _ => False) := by
  refine get_bind fun s h => ?_
  rw [h.metadata]
  refine ite (fun hnull => pure ?_) fun hnull => ?_
  · rintro _ rfl
    rcases hs ca with ⟨-, hdata⟩ | ⟨hholds, -⟩
    · exact ⟨hdata.symm, h⟩
    · exact absurd hnull (by simp [ClusterLocationAndHash.isNull, hholds.not_null])
  · obtain ⟨-, hweed, hin⟩ := hs.of_not_null hnull
    have hfind := find_triple (d := d) (m := m) hW ca
      fun hmode => ⟨hweed.trans (weed_of_contentBased hmode _), hin hmode⟩
    refine (hfind.of_eq h).bind fun r => ?_
    cases r with
    | none => exact pure fun t ht => ⟨⟨rfl, hnull⟩, ht.2⟩
    | some data => exact pure fun t ht => ⟨ht.1 data rfl, ht.2⟩

include hW hs in
theorem lookups_triple : ∀ cas : List ClusterAddress, Triple (Holding cfg W d m content) (lookups cfg cas)
      (fun found s => List.Forall₂ (Tells m content) cas found ∧ Holding cfg W d m content s) (fun _ => False)
  | [] => pure fun _ h => ⟨.nil, h⟩
  | ca :: cas => by
    refine (lookup_triple hW hs ca).bind fun found => of_and fun hfound => ?_
    refine (lookups_triple cas).bind fun rest => ?_
    exact pure fun s h => ⟨.cons hfound h.1, h.2⟩

theorem mem_read_descriptors : ∀ {cas : List ClusterAddress} {found : List Found} (index : Nat),
    List.Forall₂ (Tells m content) cas found → ∀ c ∈ read_descriptors index cas found,
      c.loc_and_hash = m c.ca ∧ ¬ (m c.ca).isNull = true
  | _, _, _, .nil, c, hc => by cases hc
  | _ :: _, .cluster _ :: _, index, .cons _ hrest, c, hc => mem_read_descriptors (index + 1) hrest c hc
  | ca :: cas, .descriptor l :: found, index, .cons hl hrest, c, hc => by
    rcases mem_cons.mp hc with rfl | hc
    · exact ⟨hl.1, hl.1 ▸ hl.2⟩
    · exact mem_read_descriptors (index + 1) hrest c hc

theorem fill_read : ∀ {cas : List ClusterAddress} {found : List Found} {index : Nat},
    List.Forall₂ (Tells m content) cas found →
      fill found ((read_descriptors index cas found).map fun c => content c.ca) = cas.map content
  | _, _, _, .nil => rfl
  | _ :: _, .cluster _ :: _, _, .cons hdata hrest => by
    rw [read_descriptors, fill, fill_read hrest, hdata]
    rfl
  | _ :: _, .descriptor _ :: _, _, .cons _ hrest => by
    rw [read_descriptors, map_cons, fill, fill_read hrest]
    rfl

include hW in
theorem add_triple (ca : ClusterAddress) {weed : Weed} {data : Bytes}
    (hweed : cfg.mode = .ContentBased → weed = cfg.sums.md5 data ∧ data ∈ W) :
    Triple (Holding cfg W d m content) (add_to_cluster_cache_ cfg ca weed data)
      (fun _ => Holding cfg W d m (update content ca data)) (fun _ => False) := by
  rintro s h
  show Holding cfg W d m (update content ca data) (if cfg.same_cluster_size = true then _ else s)
  split
  · next hsize => exact ⟨h.ds, h.metadata, fun _ => (h.cached hsize).add hW.others ca hweed⟩
  · next hsize => exact ⟨h.ds, h.metadata, fun hn => absurd hn hsize⟩

include hW hs in
theorem add_all_triple : ∀ {descs : List ClusterReadDescriptor},
    (∀ c ∈ descs, c.loc_and_hash = m c.ca ∧ ¬ (m c.ca).isNull = true) →
    Triple (Holding cfg W d m content) (add_all_to_cluster_cache_ cfg (descs.zip (descs.map fun c => content c.ca)))
      (fun _ => Holding cfg W d m content) (fun _ => False)
  | [], _ => pure fun _ h => h
  | c :: descs, h => by
    obtain ⟨⟨hloc, hnull⟩, hrest⟩ := forall_mem_cons.mp h
    obtain ⟨-, hweed, hin⟩ := hs.of_not_null hnull
    have hadd : Triple (Holding cfg W d m content)
        (add_to_cluster_cache_ cfg c.ca c.loc_and_hash.weed (content c.ca))
        (fun _ => Holding cfg W d m (update content c.ca (content c.ca))) (fun _ => False) :=
      add_triple hW c.ca fun hmode => ⟨by rw [hloc, hweed, weed_of_contentBased hmode], hin hmode⟩
    rw [update_eq_self] at hadd
    exact hadd.bind fun _ => add_all_triple hrest

include hW hs in
theorem readClusters_triple (addr bufsize : Nat) : Triple (Holding cfg W d m content) (readClusters_ cfg addr bufsize)
      (fun r s => r = (Access.clusterAddresses cfg.volume addr bufsize).map content ∧ Holding cfg W d m content s)
      (fun _ => False) := by
  refine (lookups_triple hW hs _).bind fun found => of_and fun hfound => ?_
  have hdescs := mem_read_descriptors 0 hfound
  generalize Access.clusterAddresses cfg.volume addr bufsize = cas at hfound hdescs ⊢
  have hread : Triple (Holding cfg W d m content)
      (onVolume (ds (readClusters (read_descriptors 0 cas found))))
      (fun r s => r = (read_descriptors 0 cas found).map (fun c => content c.ca) ∧ Holding cfg W d m content s)
      (fun _ => False) := by
    rintro s ⟨rfl, rfl, hcache⟩
    have hok : readClusters (read_descriptors 0 cas found) s.volume.dataStore_ =
        .ok ((read_descriptors 0 cas found).map fun c => content c.ca) s.volume.dataStore_ := by
      apply readClusters_ok
      intro c hc
      obtain ⟨hloc, hnull⟩ := hdescs c hc
      have := (hs.of_not_null hnull).1.cluster
      rwa [← hloc] at this
    rw [onVolume_ok (ds_ok hok)]
    exact ⟨rfl, rfl, rfl, hcache⟩
  refine hread.bind fun r => of_and ?_
  rintro rfl
  refine ite (fun _ => ?_) fun _ => pure fun s h => ⟨fill_read hfound, h⟩
  exact (add_all_triple hW hs hdescs).bind fun _ => pure fun s h => ⟨fill_read hfound, h⟩

end

/-! ## Writing -/

section
variable (hW : Collisionless cfg W)

theorem writeClusterMetaData_triple (ca : Nat) {l : ClusterLocationAndHash} (hnull : l.isNull = false)
    (hca : ca < 2 ^ 35) :
    Triple (Holding cfg W d m content) (onVolume (writeClusterMetaData_ ca l))
      (fun _ => Holding cfg W d (update m ca l) content) (fun _ => False) := by
  rintro s ⟨rfl, rfl, hcache⟩
  obtain ⟨v', hok, hd, hm, -⟩ := TLogRuns.writeClusterMetaData_ok ca hnull (Nat.le_sub_one_of_lt hca) s.volume
  rw [onVolume_ok hok]
  exact ⟨hd, hm, hcache⟩

include hW in
theorem purge_triple (ca : ClusterAddress) (data : Bytes) :
    Triple (Holding cfg W d m content) (purge_from_cluster_cache_ cfg ca)
      (fun _ => Holding cfg W d m (update content ca data)) (fun _ => False) := by
  rintro s h
  show Holding cfg W d m (update content ca data) (if cfg.same_cluster_size = true then _ else s)
  split
  · next hsize => exact ⟨h.ds, h.metadata, fun _ => (h.cached hsize).invalidate hW.others ca data⟩
  · next hsize => exact ⟨h.ds, h.metadata, fun hn => absurd hn hsize⟩

theorem Holding.of_contentBased {s : Disk} (h : Holding cfg W d m content s) (hmode : ¬ cfg.mode = .LocationBased)
    (content' : ClusterAddress → Bytes) : Holding cfg W d m content' s := by
  have hcontent : cfg.mode = .ContentBased := by
    cases h : cfg.mode with
    | ContentBased => rfl
    | LocationBased => exact absurd h hmode
  refine ⟨h.ds, h.metadata, fun hsize => ?_⟩
  have := h.cached hsize
  rw [hcontent] at this ⊢
  exact this.update_content content'

/-- What the metadata get for a cluster. -/
def located (cfg : Config) (p : ClusterLocation × Bytes) : ClusterLocationAndHash := ⟨p.1, cfg.weed p.2⟩

include hW in
theorem recordClusters_triple : ∀ (l : List (ClusterLocation × Bytes)) (ca : Nat)
    (m : ClusterMap) (content : ClusterAddress → Bytes),
    (∀ p ∈ l, p.1.isNull = false ∧ (cfg.mode = .ContentBased → p.2 ∈ W)) → ca + l.length ≤ 2 ^ 35 →
    Triple (Holding cfg W d m content) (recordClusters cfg ca l)
      (fun _ => Holding cfg W d (store m ca (l.map (located cfg))) (store content ca (l.map Prod.snd))) (fun _ => False)
  | [], ca, m, content, _, _ => pure fun s h => by
    rw [map_nil, map_nil, store_nil, store_nil]
    exact h
  | (loc, data) :: rest, ca, m, content, hl, hca => by
    obtain ⟨⟨hnull, hdata⟩, hrest⟩ := forall_mem_cons.mp hl
    rw [length_cons] at hca
    have hlt : ca < 2 ^ 35 := by omega
    have hloc : (located cfg (loc, data)).isNull = false := hnull
    have hweed : cfg.mode = .ContentBased → cfg.weed data = cfg.sums.md5 data ∧ data ∈ W :=
      fun hmode => ⟨weed_of_contentBased hmode data, hdata hmode⟩
    have ih := recordClusters_triple rest (ca + 1) (update m ca (located cfg (loc, data)))
      (update content ca data) hrest (by omega)
    rw [map_cons, map_cons, store_cons, store_cons]
    refine (writeClusterMetaData_triple ca hloc hlt).bind fun _ => ?_
    refine ite (fun _ => (add_triple hW ca hweed).bind fun _ => ih) fun _ => ?_
    refine ite (fun _ => (purge_triple hW ca data).bind fun _ => ih) fun hmode => ?_
    exact ih.weaken (fun s h => h.of_contentBased hmode _) fun _ _ hq => hq

theorem handOut_triple (buf : List Bytes) (hopen : d.CanWrite) :
    Triple (Holding cfg W d m content) (onVolume (handOut buf))
      (fun locs s => locs = d.locations buf.length ∧ Holding cfg W (d.ready.written buf) m content s)
      (fun _ => False) := by
  rintro s ⟨rfl, rfl, hcache⟩
  rw [onVolume_ok (handOut_ok buf hopen)]
  exact ⟨rfl, rfl, rfl, hcache⟩

/-- The data store after the end of a chunk: a full SCO is left for the next one. -/
def rolled {D : Type} (d : DataStoreNG D) : DataStoreNG D :=
  if d.getRemainingSCOCapacity = 0 then d.nextSCO.attempted else d

theorem rollover_ok {D : Type} (sums : Sums D) {v : Volume D}
    (hdata : v.dataStore_.getRemainingSCOCapacity = 0 → v.dataStore_.offset ≠ 0 ∧ v.dataStore_.current_open = true) :
    ∃ v', rollover sums v = .ok ⟨⟩ v' ∧ v'.dataStore_ = rolled v.dataStore_ ∧ v'.metaDataStore_ = v.metaDataStore_ := by
  by_cases hcap : v.dataStore_.getRemainingSCOCapacity = 0
  · obtain ⟨h0, hopen⟩ := hdata hcap
    obtain ⟨v', hadd, hsame⟩ := TLogRuns.addRollover_same sums { v with dataStore_ := v.dataStore_.nextSCO.attempted }
      (some v.dataStore_.currentCheckSum_)
    refine ⟨v', ?_, ?_, hsame.metadata⟩
    · refine run_get_bind.trans ?_
      rw [if_pos hcap]
      exact (run_bind (ds_ok (finalizeCurrentSCO_data h0 hopen))).trans hadd
    · rw [rolled, if_pos hcap, hsame.ds]
  · refine ⟨v, ?_, ?_, rfl⟩
    · refine run_get_bind.trans ?_
      rw [if_neg hcap]
      rfl
    · rw [rolled, if_neg hcap]

theorem rollover_triple (hdata : d.getRemainingSCOCapacity = 0 → d.offset ≠ 0 ∧ d.current_open = true) :
    Triple (Holding cfg W d m content) (onVolume (rollover cfg.sums))
      (fun _ => Holding cfg W (rolled d) m content) (fun _ => False) := by
  rintro s ⟨rfl, rfl, hcache⟩
  obtain ⟨v', hok, hd, hm⟩ := rollover_ok cfg.sums (v := s.volume) hdata
  rw [onVolume_ok hok]
  exact ⟨hd, hm, hcache⟩

/-- What the metadata get for a chunk. -/
def recorded (cfg : Config) (d : DataStoreNG Bytes) (buf : List Bytes) : List ClusterLocationAndHash :=
  ((d.locations buf.length).zip buf).map (located cfg)

theorem map_snd_locations (buf : List Bytes) : ((d.locations buf.length).zip buf).map Prod.snd = buf :=
  map_snd_zip (by simp [DataStoreNG.locations])

include hW in
theorem writeClusters_triple (ca : Nat) (buf : List Bytes) (hnumber : 0 < d.number) (hca : ca + buf.length ≤ 2 ^ 35)
    (hin : cfg.mode = .ContentBased → ∀ data ∈ buf, data ∈ W)
    (hopen : d.CanWrite)
    (hfull : (d.ready.written buf).getRemainingSCOCapacity = 0 → (d.ready.written buf).offset ≠ 0) :
    Triple (Holding cfg W d m content) (writeClusters_ cfg ca buf)
      (fun _ => Holding cfg W (rolled (d.ready.written buf)) (store m ca (recorded cfg d buf)) (store content ca buf))
      (fun _ => False) := by
  refine (handOut_triple buf hopen).bind fun locs => of_and ?_
  rintro rfl
  have hlen : ((d.locations buf.length).zip buf).length = buf.length := by
    simp [DataStoreNG.locations]
  have hnew : ∀ p ∈ (d.locations buf.length).zip buf, p.1.isNull = false ∧ (cfg.mode = .ContentBased → p.2 ∈ W) := by
    rintro p hp
    obtain ⟨hloc, hdata⟩ := of_mem_zip hp
    refine ⟨?_, fun hmode => hin hmode p.2 hdata⟩
    obtain ⟨i, -, hi⟩ := mem_map.mp hloc
    rw [← hi]
    exact beq_eq_false_iff_ne.mpr (Nat.ne_of_gt hnumber)
  have hrecord := recordClusters_triple (d := d.ready.written buf) hW ((d.locations buf.length).zip buf) ca m content
    hnew (hlen.symm ▸ hca)
  rw [map_snd_locations] at hrecord
  exact hrecord.bind fun _ => rollover_triple fun hcap => ⟨hfull hcap, d.ready_open⟩

end

end

/-! ## The loop -/

section
variable {D : Type} {d : DataStoreNG D} {l : ClusterLocation} {data : D} {r : Nat}

/-- Between two chunks: the SCO is not full, and `r` more clusters can be written. -/
structure Writable (r : Nat) (d : DataStoreNG D) : Prop where
  consistent : Consistent d
  room : Room r d
  offset_lt : d.offset < d.sco_mult_
  creates : d.createSCO_fails = []

theorem rolled_cases (h : Room r d) :
    d.offset < d.sco_mult_ ∧ rolled d = d ∨ d.offset = d.sco_mult_ ∧ rolled d = d.nextSCO.attempted := by
  have hle := h.offset_le
  have hcap := h.capacity
  by_cases hfull : d.offset = d.sco_mult_
  · exact .inr ⟨hfull, by rw [rolled, if_pos (by omega)]⟩
  · exact .inl ⟨by omega, by rw [rolled, if_neg (by omega)]⟩

theorem Holds.rolled (h : Holds d l data) (hroom : Room r d) : Holds (rolled d) l data := by
  rcases rolled_cases hroom with ⟨-, heq⟩ | ⟨hfull, heq⟩
  · rw [heq]
    exact h
  · rw [heq]
    exact h.next (hroom.next_lt hfull)

theorem writable_rolled (hd : Consistent d) (hroom : Room r d) (hcreates : d.createSCO_fails = []) :
    Writable r (rolled d) := by
  rcases rolled_cases hroom with ⟨hlt, heq⟩ | ⟨hfull, heq⟩
  · rw [heq]
    exact ⟨hd, hroom, hlt, hcreates⟩
  · have hattempted : d.nextSCO.attempted = d.nextSCO.created := by
      have : d.nextSCO.createSCO_fails = [] := hcreates
      rw [attempted, this]
      rfl
    rw [heq]
    refine ⟨(hd.nextSCO (hroom.next_lt hfull)).attempted rfl, hroom.next hfull, ?_, ?_⟩
    · rw [hattempted]
      exact hroom.mult_pos
    · rw [hattempted]
      show d.createSCO_fails.tail = []
      rw [hcreates]
      rfl

theorem creates_written (buf : List D) (h : d.createSCO_fails = []) : (d.ready.written buf).createSCO_fails = [] := by
  show d.ready.createSCO_fails = []
  unfold ready
  split
  · exact h
  · show d.createSCO_fails.tail = []
    rw [h]
    rfl

end

/-- The volume holds the clusters `content`, and takes `r` more. -/
structure Inv (content : ClusterAddress → Bytes) (r : Nat) (s : Disk) : Prop where
  stored : Stored cfg W s.volume.dataStore_ s.volume.metaDataStore_ content
  cached : Cached cfg W content s.clusterCache
  writable : Writable r s.volume.dataStore_

section
variable {cfg W} {content : ClusterAddress → Bytes} {d : DataStoreNG Bytes}
  {m : ClusterMap} {r : Nat}

theorem Inv.holding {s : Disk} (h : Inv cfg W content r s) :
    Holding cfg W s.volume.dataStore_ s.volume.metaDataStore_ content s := ⟨rfl, rfl, h.cached⟩

theorem Holding.inv {s : Disk} (h : Holding cfg W d m content s) (hs : Stored cfg W d m content) (hd : Writable r d) :
    Inv cfg W content r s := by
  obtain ⟨rfl, rfl, hcache⟩ := h
  exact ⟨hs, hcache, hd⟩

theorem Stored.chunk (h : Stored cfg W d m content) (hd : Writable r d) (ca : Nat) (buf : List Bytes)
    (hfit : buf.length ≤ d.sco_mult_ - d.offset) (hr : buf.length ≤ r)
    (hin : cfg.mode = .ContentBased → ∀ data ∈ buf, data ∈ W) :
    Stored cfg W (rolled (d.ready.written buf)) (store m ca (recorded cfg d buf)) (store content ca buf) := by
  have hroom := hd.room.write hfit hr
  have hbuf : d.offset + buf.length < 2 ^ 16 := by
    have := hd.room.mult_lt
    have := hd.offset_lt
    omega
  have hlen : (recorded cfg d buf).length = buf.length := by simp [recorded, DataStoreNG.locations]
  intro a
  rcases store_cases m ca (recorded cfg d buf) a with ⟨i, hi, rfl, hnew⟩ | ⟨hout, hold⟩
  · rw [hlen] at hi
    have hi' : i < ((d.locations buf.length).zip buf).length := by simpa [DataStoreNG.locations] using hi
    have hmem := getElem_mem hi'
    have hholds := holds_locations hd.consistent buf hbuf _ hmem
    have hsnd : ((d.locations buf.length).zip buf)[i].2 = buf[i] := by rw [getElem_zip]
    have hl : (recorded cfg d buf)[i] = located cfg ((d.locations buf.length).zip buf)[i] := getElem_map ..
    rw [hnew, store_of_lt hi, hl, ← hsnd]
    exact .inr ⟨hholds.rolled hroom, rfl, fun hmode => hin hmode _ (of_mem_zip hmem).2⟩
  · rw [hold, store_of_outside (hlen ▸ hout)]
    exact (h a).mono fun l data hl => (hl.written hd.consistent buf hbuf).rolled hroom

variable (hW : Collisionless cfg W)

include hW in
theorem writeChunks_triple (hmax : 0 < cfg.max_entries) : ∀ (turns ca : Nat) (buf : List Bytes)
    (content : ClusterAddress → Bytes), buf.length ≤ turns → ca + buf.length ≤ 2 ^ 35 →
    (cfg.mode = .ContentBased → ∀ data ∈ buf, data ∈ W) →
    Triple (Inv cfg W content buf.length) (writeChunks cfg turns ca buf) (fun _ => Inv cfg W (store content ca buf) 0)
      (fun _ => False)
  | 0, ca, buf, content, hturns, _, _ => by
    obtain rfl := eq_nil_of_length_eq_zero (Nat.le_zero.mp hturns)
    rw [store_nil]
    exact pure fun _ h => h
  | turns + 1, ca, buf, content, hturns, hca, hin => by
    refine get_bind fun s h => ite (fun hne => ?_) fun hnil => ?_
    · have hpos := length_pos_iff.mpr hne
      have hcap := h.writable.room.capacity
      have hlt := h.writable.offset_lt
      generalize hchunk : min buf.length (min cfg.max_entries s.volume.dataStore_.getRemainingSCOCapacity) = chunk
      have htake : (buf.take chunk).length = chunk := by rw [length_take]; omega
      have hfit : (buf.take chunk).length ≤ s.volume.dataStore_.sco_mult_ - s.volume.dataStore_.offset := by omega
      have hin' : cfg.mode = .ContentBased → ∀ data ∈ buf.take chunk, data ∈ W :=
        fun hmode data hdata => hin hmode data (mem_of_mem_take hdata)
      have hroom := h.writable.room.write hfit (r := buf.length) (by omega)
      have hoffset := offset_ready_written (d := s.volume.dataStore_) (buf.take chunk)
        (by have := h.writable.room.mult_lt; omega)
      rintro s rfl
      have hverify : onVolume (Volume.verify (0 < cfg.max_entries) "dtl_cap > 0") s = .ok () s := by
        refine onVolume_ok (v := s.volume) ?_
        rw [Volume.verify, if_pos hmax]
        rfl
      rw [run_bind hverify]
      refine bind (Q := fun _ t => Inv cfg W (store content ca (buf.take chunk)) (buf.drop chunk).length t)
        (P := Holding cfg W s.volume.dataStore_ s.volume.metaDataStore_ content) ?_ (fun _ => ?_) s h.holding
      · refine (writeClusters_triple hW ca (buf.take chunk) h.writable.consistent.number_pos (by omega) hin'
          (.inr (by rw [h.writable.creates]; rfl)) (by omega)).weaken (fun _ hp => hp) ?_
        intro _ t ht
        refine ht.inv (h.stored.chunk h.writable ca _ hfit (by omega) hin') ?_
        have hlen : buf.length - (buf.take chunk).length = (buf.drop chunk).length := by
          rw [htake, length_drop]
        rw [← hlen]
        exact writable_rolled (h.writable.consistent.ready_written _ (by have := h.writable.room.mult_lt; omega)) hroom
          (creates_written _ h.writable.creates)
      · have hrest := writeChunks_triple hmax turns (ca + chunk) (buf.drop chunk) (store content ca (buf.take chunk))
          (by rw [length_drop]; omega) (by rw [length_drop]; omega)
          fun hmode data hdata => hin hmode data (mem_of_mem_drop hdata)
        have happend : store content ca (buf.take chunk ++ buf.drop chunk) =
          store (store content ca (buf.take chunk)) (ca + (buf.take chunk).length) (buf.drop chunk) := store_append _
        rw [take_append_drop, htake] at happend
        rw [happend]
        exact hrest
    · obtain rfl := not_not.mp hnil
      rw [store_nil]
      refine pure ?_
      rintro _ rfl
      exact h

end

end

end ReadBack

end VolumeDriver
