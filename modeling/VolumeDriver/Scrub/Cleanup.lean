/-
What happens to the objects of a scrub whose result the volume rejects (Volume::cleanupScrubbingOnError_):
the new SCOs are not among the names that are queued, so that nothing is left behind only if the scrub
had no SCO to rewrite.
-/
import VolumeDriver.Scrub.Result

namespace VolumeDriver

open Lib List

namespace Scrubbing

/-- What is deleted when a scrub result is rejected. -/
inductive ScrubbingCleanup
  | Never
  | OnError
  | Always
  deriving DecidableEq, Repr

/-- The objects that a result names, and its own. -/
def ScrubberResult.garbage (r : ScrubberResult) (res_name : ObjectName) : List ObjectName :=
  r.new_sconames.map .sco ++ (r.tlogs_out.map fun tlog => .tlog tlog.id) ++ r.relocs ++ [res_name]

/-- The names that are queued for the garbage collector, if any. -/
def cleanupScrubbingOnError_ (sp : SnapshotPersistor) (scrub_result : ScrubberResult) (res_name : ObjectName) :
    Option (List ObjectName) :=
  if scrub_result.tlogs_out.any fun tlog => sp.tlogReferenced tlog.id then none
  else some (scrub_result.garbage res_name)

/-- The part of `applyScrubbingWork` that hands the result to the snapshot management, for a volume's own
namespace; if that throws, what is queued comes with the exception. -/
def applyToSnapshots (cleanup : ScrubbingCleanup) (sp : SnapshotPersistor) (scrub_result : ScrubberResult)
    (res_name : ObjectName) (scrub_id : ScrubId) : Except (Exn × Option (List ObjectName)) SnapshotPersistor :=
  let applied : Except Exn SnapshotPersistor := do
    let n ← sp.getSnapshotNum scrub_result.snapshot_name
    sp.replaceTLogsWithScrubbedOnes scrub_result.tlog_names_in scrub_result.tlogs_out n scrub_id
  applied.mapError fun x => (x, if cleanup = .Never then none else cleanupScrubbingOnError_ sp scrub_result res_name)

theorem applyToSnapshots_error {cleanup : ScrubbingCleanup} {sp : SnapshotPersistor} {scrub_result : ScrubberResult}
    {res_name : ObjectName} {scrub_id : ScrubId} {x : Exn} {garbage : Option (List ObjectName)} (hc : cleanup ≠ .Never)
    (h : applyToSnapshots cleanup sp scrub_result res_name scrub_id = .error (x, garbage)) :
    garbage = cleanupScrubbingOnError_ sp scrub_result res_name := by
  unfold applyToSnapshots at h
  rw [if_neg hc] at h
  cases ha : (do
    let n ← sp.getSnapshotNum scrub_result.snapshot_name
    sp.replaceTLogsWithScrubbedOnes scrub_result.tlog_names_in scrub_result.tlogs_out n scrub_id : Except Exn
      SnapshotPersistor) with
  | ok sp' => rw [ha] at h; cases h
  | error e => rw [ha] at h; cases h; rfl

/-- The garbage collector; an object may be gone already. -/
def collect (b : BackendInterface) (garbage : List ObjectName) : Except Exn BackendInterface :=
  garbage.foldlM (fun b name => b.remove name true) b

theorem collect_ok : ∀ (garbage : List ObjectName) (b : BackendInterface),
    collect b garbage = .ok fun name => if name ∈ garbage then none else b name
  | [], b => by simp [collect]; rfl
  | x :: garbage, b => by
    have hremove : b.remove x true = .ok (Function.update b x none) := by
      unfold BackendInterface.remove
      rw [Bool.or_true]
      rfl
    unfold collect
    rw [foldlM_cons, hremove, ok_bind]
    refine (collect_ok garbage _).trans (congrArg Except.ok (funext fun name => ?_))
    by_cases hx : name = x
    · subst hx
      simp
    · simp [hx]

namespace Scrubber

/-- Entries as a volume writes them: SCO after SCO, and in each SCO one offset after the other; offsets
have 16 bits. -/
structure AsWritten (T : List Entry) : Prop where
  contiguous : Contiguous T
  offsets : T.Pairwise fun x y => x.sco = y.sco → x.clusterLocation.offset < y.clusterLocation.offset
  offset_lt : ∀ e ∈ T, e.clusterLocation.offset < 2 ^ 16

/-- The clusters of a SCO that are still in use. -/
def liveEntries (T : List Entry) (sco : SCO) : Nat := (latest (·.clusteraddress) T).countP (·.sco = sco)

/-- A SCO whose remaining clusters the scrub copies elsewhere. -/
def Sparse (args : ScrubberArgs) (T : List Entry) (sco : SCO) : Prop :=
  sco ≠ lastSCO T ∧ 0 < liveEntries T sco ∧ liveEntries T sco < args.minimum_number_of_used_entries.toNat

section
variable {args : ScrubberArgs} {ids : FreshIds} {b b' : BackendInterface} {T : List Entry} {s : Scrubbed}
  {result : ScrubberResult} {kept : List Entry} {pairs : List (Entry × Entry)} {data : List ScrubbingSCOData}
  {logs rlogs : Logs}

/-! ## Which scrubs rewrite -/

theorem AsWritten.liveEntries_le (h : AsWritten T) (sco : SCO) : liveEntries T sco ≤ 2 ^ 16 := by
  unfold liveEntries
  rw [countP_eq_length_filter]
  have hsub : ((latest (·.clusteraddress) T).filter (·.sco = sco)).Sublist T :=
    filter_sublist.trans (latest_sublist _ T)
  have hmem : ∀ e ∈ (latest (·.clusteraddress) T).filter (·.sco = sco), e.sco = sco := by
    intro e he
    simpa using (mem_filter.1 he).2
  -- the offsets are different numbers below 2^16
  have hnodup : (((latest (·.clusteraddress) T).filter (·.sco = sco)).map fun e => e.clusterLocation.offset).Nodup := by
    rw [List.Nodup, pairwise_map]
    refine (h.offsets.sublist hsub).imp_of_mem ?_
    intro x y hx hy hlt
    exact Nat.ne_of_lt (hlt ((hmem x hx).trans (hmem y hy).symm))
  have hrange : ((latest (·.clusteraddress) T).filter (·.sco = sco)).map (fun e => e.clusterLocation.offset) ⊆
      List.range (2 ^ 16) := by
    intro n hn
    obtain ⟨e, he, rfl⟩ := mem_map.1 hn
    exact mem_range.2 (h.offset_lt e (hsub.subset he))
  have hlen := (hnodup.subperm hrange).length_le
  rwa [length_map, length_range] at hlen

theorem Facts.usageCount (hf : Facts args b T s kept pairs data logs) {d : ScrubbingSCOData}
    (hd : d ∈ s.pool.scodata_) : d.usageCount = liveEntries T d.sconame_ % 2 ^ 16 := by
  have hk : (d.sconame_, d.usageCount) ∈ Cursor.keys s.pool.scodata_ := mem_map.2 ⟨d, hd, rfl⟩
  rw [hf.placed.keys] at hk
  obtain ⟨x, hx, hxd⟩ := mem_map.1 hk
  obtain ⟨d₀, hd₀, rfl⟩ := mem_map.1 hx
  obtain ⟨hname, hcount⟩ := Prod.mk.inj hxd
  rw [← hname, ← hcount]
  show (d₀.usageCount + _) % 2 ^ 16 = _
  rw [(hf.listed.unused d₀ hd₀).1, Nat.zero_add]
  rfl

/-- There is something to rewrite if and only if there is a sparse SCO. -/
theorem Facts.pairs_nil_iff (hf : Facts args b T s kept pairs data logs) (hT : AsWritten T) :
    pairs = [] ↔ ∀ sco, ¬ Sparse args T sco := by
  constructor
  · rintro rfl sco ⟨hne, hpos, hlt⟩
    have hmin : args.minimum_number_of_used_entries.toNat < 2 ^ 16 := UInt16.toNat_lt _
    obtain ⟨e, he, hsco⟩ := countP_pos_iff.1 hpos
    have hkept : e ∈ kept := by simpa using hf.live.mem_iff.2 he
    obtain ⟨d, hd, hname, hstate, -⟩ := hf.placed.kept e hkept
    have hsco : d.sconame_ = sco := hname.trans (by simpa using hsco)
    rcases (hf.placed.justified d hd).notScrubbed hstate with hlast | hused
    · exact hne (hsco ▸ hlast)
    · rw [hf.usageCount hd, hsco, Nat.mod_eq_of_lt (by omega)] at hused
      exact absurd hlt (Nat.not_lt.2 hused)
  · intro hnone
    rw [eq_nil_iff_forall_not_mem]
    intro p hp
    obtain ⟨d, hd, hname, hmoved, hused⟩ := hf.placed.moved p.1 (mem_map_of_mem hp)
    obtain ⟨hlast, hcount⟩ := (hf.placed.justified d hd).moved hmoved
    have hle := hT.liveEntries_le d.sconame_
    rw [hf.usageCount hd] at hused hcount
    have hlt : liveEntries T d.sconame_ % 2 ^ 16 < args.minimum_number_of_used_entries.toNat := by
      rcases hcount with h | h
      · exact absurd h hused
      · exact h
    -- a full count would have wrapped to nothing
    have hmod : liveEntries T d.sconame_ % 2 ^ 16 = liveEntries T d.sconame_ := by
      apply Nat.mod_eq_of_lt
      rcases Nat.lt_or_eq_of_le hle with h | h
      · exact h
      · rw [h] at hused
        exact absurd (Nat.mod_self _) hused
    rw [hmod] at hused hlt
    exact hnone d.sconame_ ⟨hlast, Nat.pos_of_ne_zero hused, hlt⟩

/-! ## What is left behind -/

section
variable (hc : Completed args ids b T b' result s kept pairs data logs rlogs)
include hc

theorem Completed.added (name : ObjectName) :
    b' name ≠ none ↔ b name ≠ none ∨ (∃ sco ∈ s.pool.new_scos_, name = .sco sco) ∨
      (∃ tlog ∈ result.tlogs_out, name = .tlog tlog.id) ∨ name ∈ result.relocs ∨
      name = .scrubbing_result ids.result_id := by
  obtain ⟨b₁, hwrote, hwrite⟩ := hc.wrote
  have hlast : b' name ≠ none ↔ b₁ name ≠ none ∨ name = .scrubbing_result ids.result_id := by
    obtain ⟨-, rfl⟩ := BackendInterface.write_ok hwrite
    by_cases hname : name = .scrubbing_result ids.result_id
    · subst hname
      simp
    · rw [Function.update_of_ne hname]
      simp [hname]
  have hlogs : (∃ l ∈ logs, name = LogKind.tlog.name l.1) ↔ ∃ tlog ∈ result.tlogs_out, name = .tlog tlog.id := by
    have hids : ∀ id, id ∈ logs.map Prod.fst ↔ id ∈ result.tlogs_out.map (·.id) := by
      intro id
      rw [hc.tlogs_out, hc.facts.ids]
    constructor
    · rintro ⟨l, hl, rfl⟩
      obtain ⟨t, ht, hid⟩ := mem_map.1 ((hids l.1).1 (mem_map_of_mem hl))
      exact ⟨t, ht, congrArg ObjectName.tlog hid.symm⟩
    · rintro ⟨t, ht, rfl⟩
      obtain ⟨l, hl, hid⟩ := mem_map.1 ((hids t.id).2 (mem_map_of_mem ht))
      exact ⟨l, hl, congrArg ObjectName.tlog hid.symm⟩
  have hrelocs : (∃ l ∈ rlogs, name = LogKind.relocation.name l.1) ↔ name ∈ result.relocs := by
    rw [hc.relocs, map_map, mem_map]
    constructor
    · rintro ⟨l, hl, rfl⟩; exact ⟨l, hl, rfl⟩
    · rintro ⟨l, hl, rfl⟩; exact ⟨l, hl, rfl⟩
  rw [hlast, hwrote.added, hc.facts.wrote.added, hc.facts.copying.added, hlogs, hrelocs]
  simp only [or_assoc]

theorem Completed.mem_garbage (name : ObjectName) :
    name ∈ result.garbage (.scrubbing_result ids.result_id) ↔
      (∃ tlog ∈ result.tlogs_out, name = .tlog tlog.id) ∨ name ∈ result.relocs ∨
        name = .scrubbing_result ids.result_id := by
  unfold ScrubberResult.garbage
  rw [hc.new_sconames]
  simp only [map_nil, nil_append, mem_append, mem_map, mem_singleton, or_assoc,
    eq_comm (a := name) (b := ObjectName.tlog _)]

theorem Completed.garbage_fresh {name : ObjectName} (h : name ∈ result.garbage (.scrubbing_result ids.result_id)) :
    b name = none := by
  obtain ⟨b₁, hwrote, hwrite⟩ := hc.wrote
  have hle := hc.facts.copying.le.trans hc.facts.wrote.le
  rcases (hc.mem_garbage name).1 h with ⟨t, ht, rfl⟩ | h | rfl
  · have hid : t.id ∈ logs.map Prod.fst := by
      rw [← hc.facts.ids, ← hc.tlogs_out]
      exact mem_map_of_mem ht
    obtain ⟨l, hl, hl'⟩ := mem_map.1 hid
    rw [← hl']
    exact hc.facts.copying.le.none (hc.facts.wrote.fresh l hl)
  · rw [hc.relocs, map_map] at h
    obtain ⟨l, hl, rfl⟩ := mem_map.1 h
    exact hle.none (hwrote.fresh l hl)
  · exact (hle.trans hwrote.le).none (BackendInterface.write_ok hwrite).1

theorem Completed.garbage_exact_iff :
    (∀ name, name ∈ result.garbage (.scrubbing_result ids.result_id) ↔ b name = none ∧ b' name ≠ none) ↔
      s.pool.new_scos_ = [] := by
  constructor
  · intro h
    rw [eq_nil_iff_forall_not_mem]
    intro sco hsco
    -- a new SCO was added, but the names that are queued are of other kinds
    have hq := (h (.sco sco)).2 ⟨hc.facts.copying.fresh sco hsco, (hc.added _).2 (Or.inr (Or.inl ⟨sco, hsco, rfl⟩))⟩
    rw [hc.mem_garbage, hc.relocs, map_map] at hq
    rcases hq with ⟨t, -, h⟩ | h | h
    · cases h
    · obtain ⟨l, -, h⟩ := mem_map.1 h
      cases h
    · cases h
  · intro hnil name
    rw [hc.added name, hnil]
    constructor
    · intro h
      exact ⟨hc.garbage_fresh h, Or.inr (Or.inr ((hc.mem_garbage name).1 h))⟩
    · rintro ⟨hnone, hb | ⟨sco, hsco, -⟩ | h⟩
      · exact absurd hnone hb
      · cases hsco
      · exact (hc.mem_garbage name).2 h

end

theorem collect_added {garbage : List ObjectName} (hle : b.Le b')
    (h : ∀ name, name ∈ garbage ↔ b name = none ∧ b' name ≠ none) : collect b' garbage = .ok b := by
  rw [collect_ok]
  refine congrArg Except.ok (funext fun name => ?_)
  by_cases hname : name ∈ garbage
  · rw [if_pos hname, ((h name).1 hname).1]
  · rw [if_neg hname]
    cases hb : b name with
    | some o => exact hle _ _ hb
    | none =>
      by_contra hb'
      exact hname ((h name).2 ⟨hb, hb'⟩)

/-! ## The condition -/

/-- For a completed scrub whose result the snapshot management rejects: the queued names are exactly the
objects that were added, and their collection restores the namespace, if and only if the volume's
snapshots do not refer to one of the new TLogs and no SCO of the snapshot was sparse. -/
theorem cleanup_exact_iff {i : Input} {sp : SnapshotPersistor} {cleanup : ScrubbingCleanup} {scrub_id : ScrubId}
    {x : Exn} {garbage : Option (List ObjectName)} (himm : args.apply_immediately = false)
    (hin : fetchSnapshot args.snapshot_name b = .ok i) (hT : AsWritten i.entries)
    (hrun : run args ids b = .ok (b', result)) (hcleanup : cleanup ≠ .Never)
    (hrej : applyToSnapshots cleanup sp result (.scrubbing_result ids.result_id) scrub_id = .error (x, garbage)) :
    ((∀ name, name ∈ garbage.getD [] ↔ b name = none ∧ b' name ≠ none) ∧ collect b' (garbage.getD []) = .ok b) ↔
      (∀ tlog ∈ result.tlogs_out, sp.tlogReferenced tlog.id = false) ∧ ∀ sco, ¬ Sparse args i.entries sco := by
  obtain ⟨s, kept, pairs, data, logs, rlogs, hc⟩ := run_ok himm hin hT.contiguous hrun
  have hle : b.Le b' := (hc.facts.copying.le.trans hc.facts.wrote.le).trans hc.le
  have hg := applyToSnapshots_error hcleanup hrej
  subst hg
  rw [← hc.facts.pairs_nil_iff hT, hc.facts.nothing, ← hc.garbage_exact_iff]
  unfold cleanupScrubbingOnError_
  by_cases href : result.tlogs_out.any (fun tlog => sp.tlogReferenced tlog.id) = true
  · -- nothing is queued, not even the result
    rw [if_pos href]
    obtain ⟨t, ht, href⟩ := any_eq_true.1 href
    constructor
    · rintro ⟨h, -⟩
      have hres := (h (.scrubbing_result ids.result_id)).2
        ⟨hc.garbage_fresh ((hc.mem_garbage _).2 (by simp)), (hc.added _).2 (by simp)⟩
      cases hres
    · rintro ⟨h, -⟩
      rw [h t ht] at href; cases href
  · rw [if_neg href, Option.getD_some]
    have hall : ∀ tlog ∈ result.tlogs_out, sp.tlogReferenced tlog.id = false := by
      intro t ht
      by_contra h
      exact href (any_eq_true.2 ⟨t, ht, by simpa using h⟩)
    constructor
    · rintro ⟨h, -⟩
      exact ⟨hall, h⟩
    · rintro ⟨-, h⟩
      exact ⟨h, collect_added hle h⟩

end

namespace Sample

/-- The volume's snapshots after the one that was scrubbed was deleted. -/
def without : SnapshotPersistor :=
  { current := [{ id := 11, written_to_backend := true }, { id := 12 }], snapshots := [] }

/-- With a lower threshold no SCO is sparse. -/
def keeping : ScrubberArgs := { args with minimum_number_of_used_entries := 1 }

theorem entries_asWritten : AsWritten entries :=
  ⟨contiguous_of_sorted (by decide) (by decide), by decide, by decide⟩

end Sample

open Sample

theorem cleanup_exact_iff_keeping :
    ∃ b' result garbage, run keeping ids backend = .ok (b', result) ∧
      applyToSnapshots .OnError without result (.scrubbing_result 300) 500 =
        .error (.snapshotNotFound "Could not find snapshot snapshot", some garbage) ∧
      collect b' garbage = .ok backend := by
  have hrun : ((run keeping ids backend).toOption.map fun r =>
      (r.2.snapshot_name, r.2.tlogs_out.all fun t => !without.tlogReferenced t.id)) = some ("snapshot", true) := by
    decide
  obtain ⟨i, hi, hentries⟩ := fetched
  obtain ⟨⟨b', result⟩, hr, hrun⟩ := toOption_map_ok hrun
  obtain ⟨hname, htlogs⟩ := Prod.mk.inj hrun
  have hall : ∀ t ∈ result.tlogs_out, without.tlogReferenced t.id = false := by
    intro t ht
    simpa using all_eq_true.1 htlogs t ht
  have hq : cleanupScrubbingOnError_ without result (.scrubbing_result 300) ≠ none := by
    unfold cleanupScrubbingOnError_
    rw [if_neg]
    · simp
    · simpa using hall
  obtain ⟨garbage, hq⟩ := Option.ne_none_iff_exists'.1 hq
  have hrej : applyToSnapshots .OnError without result (.scrubbing_result 300) 500 =
      .error (.snapshotNotFound "Could not find snapshot snapshot", some garbage) := by
    unfold applyToSnapshots
    rw [hname, hq]
    rfl
  have hsparse : ∀ sco, ¬ Sparse keeping i.entries sco := by
    rintro sco ⟨-, hpos, hlt⟩
    exact absurd hlt (Nat.not_lt.2 hpos)
  obtain ⟨-, hcollect⟩ := (cleanup_exact_iff rfl hi (hentries ▸ entries_asWritten) hr (by decide) hrej).2
    ⟨hall, hsparse⟩
  exact ⟨b', result, garbage, hr, hrej, hcollect⟩

theorem cleanup_not_exact :
    ∃ b' result garbage, run args ids backend = .ok (b', result) ∧
      applyToSnapshots .OnError without result (.scrubbing_result 300) 500 =
        .error (.snapshotNotFound "Could not find snapshot snapshot", some garbage) ∧
      backend (.sco ⟨1, 0, 1⟩) = none ∧ b' (.sco ⟨1, 0, 1⟩) = some [11] ∧ .sco ⟨1, 0, 1⟩ ∉ garbage := by
  have hrun : ((run args ids backend).toOption.map fun r => (r.2, r.1 (.sco ⟨1, 0, 1⟩))) =
      some ({ snapshot_name := "snapshot", tlog_names_in := [11]
              tlogs_out := [{ id := 100, written_to_backend := true, size := 3 }]
              relocs := [.relocation 200], relocNum := 1, sconames_to_be_deleted := [⟨1, 0, 0⟩], new_sconames := [] },
            some [11]) := by decide
  obtain ⟨r, hr, hrun⟩ := toOption_map_ok hrun
  obtain ⟨hres, hsco⟩ := Prod.mk.inj hrun
  refine ⟨r.1, r.2, [.tlog 100, .relocation 200, .scrubbing_result 300], hr, ?_, by decide, hsco, by decide⟩
  rw [hres]
  rfl

end Scrubber

end Scrubbing

end VolumeDriver
