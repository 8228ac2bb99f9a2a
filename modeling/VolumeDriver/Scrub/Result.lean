/-
What a completed scrub leaves on the backend: the new SCOs, the new TLogs, the relocation logs and the
result, from which the volume reads back what it needs.
-/
import VolumeDriver.Scrub.Scrubber

namespace VolumeDriver

open Lib

namespace Scrubbing

namespace Scrubber

/-- `RelocationReaderFactory`: the locations in the relocation logs. -/
def readRelocs (b : BackendInterface) (relocs : List ObjectName) : Except Exn (List Entry) := do
  let ls ← relocs.mapM fun
    | .relocation id => b.read (.relocation id)
    | _ => throw .backendObjectDoesNotExist
  pure (ls.flatten.filter (·.isLocation))

variable {args : ScrubberArgs} {ids : FreshIds} {b b' : BackendInterface} {i : Input} {result : ScrubberResult}

theorem fetchSnapshot_isLocation {name : SnapshotName} (h : fetchSnapshot name b = .ok i) :
    ∀ e ∈ i.entries, e.isLocation = true := by
  obtain ⟨sp, -, h⟩ := bind_ok h
  obtain ⟨num, -, h⟩ := bind_ok h
  obtain ⟨-, h⟩ := VERIFY_bind_ok h
  obtain ⟨entries, hread, h⟩ := bind_ok h
  rw [← pure_ok h]
  exact CachedMetaDataStore.CombinedTLogReader_isLocation hread

theorem readRelocs_eq (b : BackendInterface) (tlogs : List TLogId) :
    readRelocs b (tlogs.map .relocation) = CombinedTLogReader (fun id => b.read (.relocation id)) tlogs := by
  unfold readRelocs CombinedTLogReader
  rw [List.mapM_map]
  rfl

theorem cutRelocations_ok {relocations : List Entry} {names : List ObjectName}
    (h : cutRelocations ids b relocations = .ok (b', names)) :
    ∃ rlogs, Cutter.Wrote .relocation b rlogs b' ∧ names = (rlogs.map Prod.fst).map .relocation ∧
      relocations = rlogs.entries ∧
      ∀ e ∈ relocations, e.isLocation = true ∧ e.clusterAddress = .ok e.clusteraddress := by
  unfold cutRelocations at h
  split at h
  · obtain ⟨t, hcut, h⟩ := bind_ok h
    obtain ⟨-, h⟩ := VERIFY_bind_ok h
    cases pure_ok h
    obtain ⟨⟨rlogs, hwrote, hids, hout, -⟩, hsane⟩ := Cutter.run_ok hcut
    refine ⟨rlogs, hwrote, ?_, hout, hsane⟩
    rw [← hids, List.map_map]
    rfl
  · rename_i hnil
    cases pure_ok h
    have hnil : relocations = [] := by simpa using hnil
    subst hnil
    exact ⟨[], ⟨.refl _, by simp, by simp, by simp⟩, rfl, rfl, by simp⟩

/-- A completed scrub that left its result to the volume. -/
structure Completed (args : ScrubberArgs) (ids : FreshIds) (b : BackendInterface) (T : List Entry)
    (b' : BackendInterface) (result : ScrubberResult) (s : Scrubbed) (kept : List Entry) (pairs : List (Entry × Entry))
    (data : List ScrubbingSCOData) (logs rlogs : Logs) : Prop where
  facts : Facts args b T s kept pairs data logs
  tlogs_out : result.tlogs_out = s.cutter.tlogs_
  relocs : result.relocs = (rlogs.map Prod.fst).map .relocation
  relocations : pairs.flatMap (fun p => [p.1, p.2]) = rlogs.entries
  sane : ∀ e ∈ rlogs.entries, e.isLocation = true ∧ e.clusterAddress = .ok e.clusteraddress
  relocNum : result.relocNum = pairs.length
  deleted : ∀ x, x ∈ result.sconames_to_be_deleted ↔ ∃ d ∈ s.pool.scodata_, d.sconame_ = x ∧ d.state.Moved
  decided : ∀ d ∈ s.pool.scodata_, d.state ≠ .Unknown
  new_sconames : result.new_sconames = []
  wrote : ∃ b₁, Cutter.Wrote .relocation s.cutter.bi_ rlogs b₁ ∧
    b₁.write (.scrubbing_result ids.result_id) result = .ok b'

theorem run_ok (himm : args.apply_immediately = false) (hin : fetchSnapshot args.snapshot_name b = .ok i)
    (hT : Contiguous i.entries) (h : run args ids b = .ok (b', result)) :
    ∃ s kept pairs data logs rlogs, Completed args ids b i.entries b' result s kept pairs data logs rlogs := by
  unfold run at h
  rw [hin, ok_bind] at h
  obtain ⟨⟨b₁, result₁⟩, hscrub, h⟩ := bind_ok h
  dsimp only at h
  rw [if_pos himm] at h
  obtain ⟨b₂, hwrite, h⟩ := bind_ok h
  cases pure_ok h
  obtain ⟨s, hpipe, hscrub⟩ := bind_ok hscrub
  obtain ⟨⟨b₂, relocs⟩, hcut, hscrub⟩ := bind_ok hscrub
  obtain ⟨names, hdel, hscrub⟩ := bind_ok hscrub
  cases pure_ok hscrub
  obtain ⟨kept, pairs, data, logs, hf⟩ := pipeline_ok hT hpipe
  obtain ⟨rlogs, hwrote, hrelocs, hout, hsane⟩ := cutRelocations_ok hcut
  obtain ⟨hmem, hall⟩ := Cursor.getSCONamesToBeDeleted_ok hdel
  refine ⟨s, kept, pairs, data, logs, rlogs, hf, rfl, hrelocs, ?_, ?_, hf.relocNum, hmem, hall, rfl, b₁, hwrote, hwrite⟩
  · rw [← hout, hf.copying.relocations]
  · rw [← hout]; exact hsane

section
variable {T : List Entry} {s : Scrubbed} {kept : List Entry} {pairs : List (Entry × Entry)}
  {data : List ScrubbingSCOData} {logs rlogs : Logs}

section
variable (hc : Completed args ids b T b' result s kept pairs data logs rlogs)
include hc

theorem Completed.le : s.cutter.bi_.Le b' := by
  obtain ⟨b₁, hwrote, hwrite⟩ := hc.wrote
  exact hwrote.le.trans (.write hwrite)

theorem Completed.read_tlogs_out :
    CombinedTLogReader (fun id => b'.read (.tlog id)) (result.tlogs_out.map (·.id)) = .ok logs.entries := by
  rw [hc.tlogs_out, hc.facts.ids]
  refine @Cutter.Wrote.read .tlog b' _ (fun id l hl => BackendInterface.read_of hl) logs ?_ ?_
  · intro l hl
    exact hc.le _ _ (hc.facts.wrote.stored l hl)
  · intro e he
    exact (hc.facts.sane e he).1

theorem Completed.read_relocs : readRelocs b' result.relocs = .ok (pairs.flatMap fun p => [p.1, p.2]) := by
  obtain ⟨b₁, hwrote, hwrite⟩ := hc.wrote
  rw [hc.relocs, readRelocs_eq, hc.relocations]
  refine @Cutter.Wrote.read .relocation b' _ (fun id l hl => BackendInterface.read_of hl) rlogs ?_ ?_
  · intro l hl
    exact BackendInterface.Le.write hwrite _ _ (hwrote.stored l hl)
  · intro e he
    exact (hc.sane e he).1

end

end

end Scrubber

end Scrubbing

end VolumeDriver
