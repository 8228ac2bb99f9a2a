/-
The scrubber (Scrubber.cpp): the location entries of a snapshot go through the metadata part, the data
part and the merge of the two logs it leaves, and are cut into new TLogs. The snapshot's contents stay
what they are.
-/
import VolumeDriver.Scrub.Merger
import VolumeDriver.Scrub.PoolRun
import VolumeDriver.Scrub.Cut

namespace VolumeDriver

open Lib List

namespace Scrubbing

/-- The arguments that matter; `minimum_number_of_used_entries` was computed from the fill ratio. -/
structure ScrubberArgs where
  snapshot_name : SnapshotName
  region_size_exponent : Nat
  sco_size : UInt16
  cluster_size_exponent : Nat
  minimum_number_of_used_entries : UInt16
  apply_immediately : Bool := false

/-- The ids drawn during a run. -/
structure FreshIds where
  tlog : Nat → TLogId
  relocation : Nat → TLogId
  result_id : UUID
  scrub_id : ScrubId

namespace ScrubberArgs

/-- The size of a cluster in bytes. -/
def cluster_size (args : ScrubberArgs) : Nat := 2 ^ args.cluster_size_exponent

/-- The constants of the pool. -/
def pool (args : ScrubberArgs) : SCOPoolConfig :=
  { cluster_size_ := args.cluster_size
    sco_size_ := args.sco_size.toNat
    minimum_used_entries_ := args.minimum_number_of_used_entries.toNat }

end ScrubberArgs

namespace Scrubber

/-- The default of both cutters. -/
def max_entries : Nat := 4194304

/-- What the pipeline leaves: the pool, the number of relocations, and the new TLogs. -/
structure Scrubbed where
  pool : SCOPool
  relocNum : Nat
  cutter : Cutter

/-- The pipeline from the location entries of a snapshot to the new TLogs. -/
def pipeline (args : ScrubberArgs) (ids : FreshIds) (b : BackendInterface) (T : List Entry) : Except Exn Scrubbed := do
  let m ← scrubMetaData args.region_size_exponent T
  let scopool ← SCOPool.make args.pool m.scodata b m.last.sco
  let (scopool, relocNum) ← scopool.run args.pool m.entries
  let (result_tlog, _) ← TLogMerger.run [scopool.rewritten_tlog, scopool.nonrewritten_tlog]
  let t ← TLogCutter ids.tlog max_entries args.cluster_size scopool.backendinterface_ result_tlog
  VERIFY (t.tlogs_ ≠ []) "not result_.tlogs_out.empty()"
  pure { pool := scopool, relocNum, cutter := t }

/-- What a scrub reads about its snapshot; `entries` are the location entries of the TLogs. -/
structure Input where
  snapshot_persistor_ : SnapshotPersistor
  snapshot_num_ : SnapshotNum
  tlog_names_in : List TLogId
  entries : List Entry

/-- Reads the snapshots file and the TLogs of the snapshot. -/
def fetchSnapshot (snapshot_name : SnapshotName) (b : BackendInterface) : Except Exn Input := do
  let sp ← b.read .snapshots
  let snapshot_num_ ← sp.getSnapshotNum snapshot_name
  let tlog_names_in := sp.snapshots.getTLogsInSnapshot snapshot_num_ []
  VERIFY (tlog_names_in ≠ []) "not result_.tlog_names_in.empty()"
  let entries ← CombinedTLogReader (fun id => b.read (.tlog id)) tlog_names_in
  pure { snapshot_persistor_ := sp, snapshot_num_, tlog_names_in, entries }

/-- Writes the relocation logs, if there are relocations. -/
def cutRelocations (ids : FreshIds) (b : BackendInterface) (relocations_tlog : List Entry) :
    Except Exn (BackendInterface × List ObjectName) :=
  if relocations_tlog ≠ [] then do
    let t ← TheSonOfTLogCutter ids.relocation max_entries b relocations_tlog
    VERIFY (t.tlogs_ ≠ []) "not cutup_relocations.empty()"
    pure (t.bi_, t.tlogs_.map fun tlog => .relocation tlog.id)
  else pure (b, [])

/-- The result, with the backend it leaves. `SCOPool` keeps the names of the new SCOs in a copy of
`new_sconames`, so that here they are missing. -/
def scrub (args : ScrubberArgs) (ids : FreshIds) (b : BackendInterface) (i : Input) :
    Except Exn (BackendInterface × ScrubberResult) := do
  let s ← pipeline args ids b i.entries
  let (b, relocs) ← cutRelocations ids s.cutter.bi_ s.pool.relocations_tlog
  let sconames_to_be_deleted ← s.pool.toCursor.getSCONamesToBeDeleted
  pure (b, {
    snapshot_name := args.snapshot_name
    tlog_names_in := i.tlog_names_in
    tlogs_out := s.cutter.tlogs_
    relocs
    relocNum := s.relocNum
    sconames_to_be_deleted
    new_sconames := [] })

/-- The TLogs of the snapshot are replaced on the backend, and what they needed is removed. -/
def applyImmediately (ids : FreshIds) (b : BackendInterface) (i : Input) (result_ : ScrubberResult) :
    Except Exn BackendInterface := do
  let sp ← i.snapshot_persistor_.replace i.tlog_names_in result_.tlogs_out i.snapshot_num_ ids.scrub_id
  let sp ← sp.setSnapshotScrubbed i.snapshot_num_ true
  let b := b.overwrite .snapshots sp
  let b ← result_.sconames_to_be_deleted.foldlM (fun b sconame => b.remove (.sco sconame) false) b
  result_.tlog_names_in.foldlM (fun b tlog_id => b.remove (.tlog tlog_id) false) b

/-- `Scrubber::operator()`. -/
def run (args : ScrubberArgs) (ids : FreshIds) (b : BackendInterface) :
    Except Exn (BackendInterface × ScrubberResult) := do
  let i ← fetchSnapshot args.snapshot_name b
  let (b, result_) ← scrub args ids b i
  if args.apply_immediately = false then do
    let b ← b.write (.scrubbing_result ids.result_id) result_
    pure (b, result_)
  else do
    let b ← applyImmediately ids b i result_
    pure (b, result_)

/-! ## What the pipeline does -/

/-- The SCO of the last entry. -/
def lastSCO (T : List Entry) : SCO := ((T.map (·.sco)).getLast?).getD ⟨0, 0, 0⟩

/-- The entries `kept` and those of `pairs` are the live ones; `logs` are the new TLogs. -/
structure Facts (args : ScrubberArgs) (b : BackendInterface) (T : List Entry) (r : Scrubbed) (kept : List Entry)
    (pairs : List (Entry × Entry)) (data : List ScrubbingSCOData) (logs : Logs) : Prop where
  listed : TLogSplitter.Listed T data
  copying : Files.Copying b args.pool kept pairs r.pool.toFiles
  renamed : ∀ p ∈ pairs, ∃ e ∈ T, ∃ v, p.2.sco = { e.sco with version := v }
  written : ∀ name, r.pool.toFiles.view name = r.pool.backendinterface_ (.sco name)
  nothing : pairs = [] ↔ r.pool.new_scos_ = []
  placed : Cursor.Placed args.pool (lastSCO T) (data.map (PartScrubber.uses (latest (·.clusteraddress) T))) kept
    (pairs.map Prod.fst) r.pool.scodata_
  live : (pairs.map Prod.fst ++ kept).Perm (latest (·.clusteraddress) T)
  relocNum : r.relocNum = pairs.length
  wrote : Cutter.Wrote .tlog r.pool.backendinterface_ logs r.cutter.bi_
  ids : r.cutter.tlogs_.map (·.id) = logs.map Prod.fst
  out : logs.entries.Perm (pairs.map Prod.snd ++ kept)
  sane : ∀ e ∈ logs.entries, e.isLocation = true ∧ e.clusterAddress = .ok e.clusteraddress

section
variable {args : ScrubberArgs} {ids : FreshIds} {b : BackendInterface} {T : List Entry} {r : Scrubbed}

theorem last_eq_lastSCO {data : List ScrubbingSCOData} {entries : List Entry} (hl : TLogSplitter.Listed T data)
    (hperm : entries.Perm (latest (·.clusteraddress) T))
    (hends : ∀ e, entries.getLast? = some e → (data.map (·.sconame_)).getLast? = some e.sco) :
    ((entries.getLast?.map Entry.clusterLocation).getD ⟨⟨0, 0, 0⟩, 0⟩).sco = lastSCO T := by
  unfold lastSCO
  cases he : entries.getLast? with
  | some e =>
    rw [← hl.last, hends e he]
    rfl
  | none =>
    rw [List.getLast?_eq_none_iff] at he
    subst he
    -- there is a live entry for every address
    have hnil : T = [] := by
      rw [eq_nil_iff_forall_not_mem]
      intro x hx
      have := (mem_latest_keys (fun e : Entry => e.clusteraddress)).2 (mem_map_of_mem hx)
      rw [← hperm.nil_eq] at this
      cases this
    subst hnil
    rfl

theorem pipeline_ok (hT : Contiguous T) (h : pipeline args ids b T = .ok r) :
    ∃ kept pairs data logs, Facts args b T r kept pairs data logs := by
  obtain ⟨m, hm, h⟩ := bind_ok h
  obtain ⟨p₀, hmake, h⟩ := bind_ok h
  obtain ⟨⟨p, relocNum⟩, hrun, h⟩ := bind_ok h
  obtain ⟨⟨result, last⟩, hmerge, h⟩ := bind_ok h
  obtain ⟨t, hcut, h⟩ := bind_ok h
  obtain ⟨-, h⟩ := VERIFY_bind_ok h
  rw [← pure_ok h]
  obtain ⟨hperm, hlast, data, hlisted, hdata⟩ := scrubMetaData_ok hm
  have hdata := hdata (hlisted.nodup hT)
  -- the pool starts with data that are all unknown
  have hinv := SCOPool.make_ok (by
    rw [hdata]
    intro d hd
    obtain ⟨x, hx, rfl⟩ := mem_map.1 hd
    exact (hlisted.unused x hx).2) hmake
  obtain ⟨kept, pairs, hran, hnum⟩ := hinv.run (UInt16.toNat_lt _) hrun
  obtain ⟨⟨logs, hwrote, hids, hout, -⟩, hsane⟩ := Cutter.run_ok hcut
  obtain ⟨hres, -⟩ := TLogMerger.run_ok hmerge
  have hlastT : m.last.sco = lastSCO T := by
    rw [hlast]
    refine last_eq_lastSCO hlisted hperm fun e he => ?_
    have hends := hran.ends e he
    rwa [hran.placed.names, hdata, PartScrubber.map_uses_names] at hends
  refine ⟨kept, pairs, data, logs, hlisted, hran.copying, ?_, hran.written, hran.nothing, ?_,
    hran.split.trans hperm, hnum, hwrote, hids, ?_, ?_⟩
  · intro p hp
    obtain ⟨n, hn, v, hv⟩ := hran.renamed.rewritten p.2 (by
      rw [hran.copying.rewritten]
      exact mem_map_of_mem hp)
    rw [hdata, PartScrubber.map_uses_names, hlisted.names] at hn
    obtain ⟨e, he, rfl⟩ := mem_map.1 hn
    exact ⟨e, he, v, hv⟩
  · rw [← hdata, ← hlastT]; exact hran.placed
  · rw [← hout]
    refine hres.trans ?_
    rw [hran.copying.rewritten, hran.copying.nonrewritten]
    simp
  · rw [← hout]; exact hsane

/-! ## The contents -/

section
variable {kept : List Entry} {pairs : List (Entry × Entry)} {data : List ScrubbingSCOData}
  {logs : Logs}

theorem Facts.addresses (hf : Facts args b T r kept pairs data logs) :
    (logs.entries.map (·.clusteraddress)).Perm
      ((latest (·.clusteraddress) T).map (·.clusteraddress)) := by
  refine (hf.out.map _).trans (List.Perm.trans ?_ (hf.live.map _))
  rw [map_append, map_append, map_map, map_map]
  refine List.Perm.append_right _ (List.Perm.of_eq (map_congr_left fun p hp => ?_))
  exact (hf.copying.copied p hp).1

theorem Facts.origin (hf : Facts args b T r kept pairs data logs) {e : Entry} (he : e ∈ logs.entries) :
    ∃ e₀ ∈ latest (·.clusteraddress) T, e.clusteraddress = e₀.clusteraddress ∧
      e.loc_and_hash.weed = e₀.loc_and_hash.weed ∧
      ∀ c, b.cluster args.cluster_size e₀.clusterLocation = some c →
        r.cutter.bi_.cluster args.cluster_size e.clusterLocation = some c := by
  rcases mem_append.1 (hf.out.mem_iff.1 he) with hs | hk
  · obtain ⟨p, hp, rfl⟩ := mem_map.1 hs
    obtain ⟨haddr, hweed, -, hcl⟩ := hf.copying.copied p hp
    refine ⟨p.1, hf.live.mem_iff.1 (mem_append_left _ (mem_map_of_mem hp)), haddr, hweed, ?_⟩
    intro c hc
    -- the new SCOs are all on the backend by now
    have hnew : r.pool.backendinterface_.cluster args.cluster_size p.2.clusterLocation = some c := by
      rw [← hcl c hc]
      unfold BackendInterface.cluster Files.cluster
      rw [hf.written]
      rfl
    exact hf.wrote.le.cluster hnew
  · refine ⟨e, hf.live.mem_iff.1 (mem_append_right _ hk), rfl, rfl, ?_⟩
    intro c hc
    exact hf.wrote.le.cluster (hf.copying.le.cluster hc)

end

/-- If the pipeline completes, the new TLogs mention every address once, and no other; the cluster and
the hash of an address are those of its last entry. -/
theorem pipeline_preserves_contents (hT : Contiguous T)
    (hcl : ∀ e ∈ T, ∃ c, b.cluster args.cluster_size e.clusterLocation = some c)
    (h : pipeline args ids b T = .ok r) :
    ∃ out, CombinedTLogReader (fun id => r.cutter.bi_.read (.tlog id)) (r.cutter.tlogs_.map (·.id)) = .ok out ∧
      (out.map (·.clusteraddress)).Nodup ∧
      (∀ a, a ∈ out.map (·.clusteraddress) ↔ a ∈ T.map (·.clusteraddress)) ∧
      ∀ e ∈ out, ∃ last c, lastBinding (T.map Entry.binding) e.clusteraddress = some last ∧
        e.loc_and_hash.weed = last.weed ∧ b.cluster args.cluster_size last.clusterLocation = some c ∧
        r.cutter.bi_.cluster args.cluster_size e.clusterLocation = some c := by
  obtain ⟨kept, pairs, data, logs, hf⟩ := pipeline_ok hT h
  refine ⟨logs.entries, ?_, ?_, ?_, ?_⟩
  · rw [hf.ids]
    refine Cutter.Wrote.read (fun id l hl => BackendInterface.read_of hl) hf.wrote.stored ?_
    intro e he
    exact (hf.sane e he).1
  · rw [hf.addresses.nodup_iff]
    exact latest_nodup _ T
  · intro a
    rw [hf.addresses.mem_iff]
    exact mem_latest_keys _
  · intro e he
    obtain ⟨e₀, he₀, haddr, hweed, hc⟩ := hf.origin he
    obtain ⟨c, hc₀⟩ := hcl e₀ ((latest_sublist _ T).subset he₀)
    refine ⟨e₀.loc_and_hash, c, ?_, hweed, hc₀, hc c hc₀⟩
    rw [haddr]
    exact lastBinding_of_mem_latest _ Entry.loc_and_hash he₀

end

/-! ## A small run -/

namespace Sample

/-- A SCO of the volume. -/
def sco (number : SCONumber) : SCO := ⟨number, 0, 0⟩

/-- A location entry. -/
def entry (ca : ClusterAddress) (number : SCONumber) (offset : SCOOffset) (weed : Weed) : Entry :=
  ⟨ca, ⟨⟨sco number, offset⟩, weed⟩⟩

/-- Address 0 is overwritten, so that the first SCO is half used. -/
def entries : List Entry := [entry 0 1 0 1, entry 1 1 1 2, entry 0 2 0 3, entry 2 2 1 4]

/-- One snapshot with the TLog 11. -/
def snapshots : SnapshotPersistor :=
  { current := [{ id := 12 }]
    snapshots := [Snapshot.make 0 "snapshot" [{ id := 11, written_to_backend := true }] [] false] }

/-- The SCOs hold one byte for each cluster. -/
def backend : BackendInterface :=
  let b : BackendInterface := fun _ => none
  let b := (b.overwrite (.sco (sco 1)) [10, 11]).overwrite (.sco (sco 2)) [20, 21]
  (b.overwrite (.tlog 11) entries).overwrite .snapshots snapshots

/-- A SCO with fewer than two live clusters is scrubbed. -/
def args : ScrubberArgs :=
  { snapshot_name := "snapshot", region_size_exponent := 1, sco_size := 2, cluster_size_exponent := 0
    minimum_number_of_used_entries := 2 }

/-- Ids that are in use nowhere. -/
def ids : FreshIds := { tlog := fun n => 100 + n, relocation := fun n => 200 + n, result_id := 300, scrub_id := 400 }

theorem fetched : ∃ i, fetchSnapshot "snapshot" backend = .ok i ∧ i.entries = entries :=
  toOption_map_ok (by decide)

end Sample

open Sample

theorem pipeline_preserves_contents_sample :
    ∃ r out, pipeline args ids backend entries = .ok r ∧
      CombinedTLogReader (fun id => r.cutter.bi_.read (.tlog id)) (r.cutter.tlogs_.map (·.id)) = .ok out ∧
      (out.map (·.clusteraddress)).Nodup ∧
      ∀ a, a ∈ out.map (·.clusteraddress) ↔ a ∈ entries.map (·.clusteraddress) := by
  have hrun : (pipeline args ids backend entries).toOption.map (fun _ => ()) = some () := by decide
  have hcl : ∀ e ∈ entries, (backend.cluster args.cluster_size e.clusterLocation).isSome = true := by
    decide
  obtain ⟨r, h, -⟩ := toOption_map_ok hrun
  obtain ⟨out, h1, h2, h3, -⟩ := pipeline_preserves_contents (contiguous_of_sorted (by decide) (by decide))
    (fun e he => Option.isSome_iff_exists.1 (hcl e he)) h
  exact ⟨r, out, h, h1, h2, h3⟩

end Scrubber

end Scrubbing

end VolumeDriver
