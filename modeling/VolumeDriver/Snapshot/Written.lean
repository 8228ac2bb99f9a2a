/-
What is on the backend is always a front of the TLogs: no written TLog follows an unwritten one.
So a saved snapshots file passes the check made when it is loaded, and the queries that collect
TLogs by that mark never trip over it.
-/
import VolumeDriver.Snapshot.Invariant

namespace VolumeDriver

open Lib List TLogs

namespace TLogs

theorem writtenFirst_map (l : TLogs) :
    l.WrittenFirst ↔ (l.map (·.written_to_backend)).Pairwise fun a b => b = true → a = true := by
  rw [WrittenFirst, pairwise_map]

theorem WrittenFirst.of_sublist {l l' : TLogs} (h : l.WrittenFirst)
    (hs : (l'.map (·.written_to_backend)).Sublist (l.map (·.written_to_backend))) : l'.WrittenFirst := by
  rw [writtenFirst_map] at h ⊢
  exact h.sublist hs

theorem WrittenFirst.concat {l : TLogs} (h : l.WrittenFirst) (id : TLogId) : WrittenFirst (l ++ [{ id := id }]) := by
  rw [WrittenFirst, pairwise_append]
  exact ⟨h, by simp, by simp⟩

theorem WrittenFirst.append {l₁ l₂ : TLogs} (h₁ : ∀ t ∈ l₁, t.written_to_backend = true) (h₂ : l₂.WrittenFirst) :
    WrittenFirst (l₁ ++ l₂) := by
  rw [WrittenFirst, pairwise_append]
  exact ⟨pairwise_of_forall_mem_list fun a ha b _ _ => h₁ a ha, h₂, fun a ha b _ _ => h₁ a ha⟩

/-- Marking a TLog as written, in order: before the TLog all are written already. -/
theorem WrittenFirst.set {l : TLogs} (h : l.WrittenFirst) (tid : TLogId) :
    (l.setTLogWrittenToBackend tid true).1.WrittenFirst := by
  rcases hr : (l.setTLogWrittenToBackend tid true).2 with e | _ | _
  · rw [setTLogWrittenToBackend_same _ _ _ (by rw [hr]; simp)]; exact h
  · rw [setTLogWrittenToBackend_same _ _ _ (by rw [hr]; simp)]; exact h
  · obtain ⟨l₁, t, l₂, rfl, _, hw, he⟩ := setTLogWrittenToBackend_true hr
    rw [he]
    rw [WrittenFirst, pairwise_append, pairwise_cons] at h
    refine .append hw ?_
    rw [WrittenFirst, pairwise_cons]
    exact ⟨fun _ _ _ => rfl, h.2.1.2⟩

end TLogs

namespace SnapshotPersistor

variable {sp sp' : SnapshotPersistor}

theorem writtenFirst_replace {a b c : TLogs} (out : TLogs) (h : TLogs.WrittenFirst (a ++ b ++ c)) (hne : b ≠ [])
    (hb : ∀ t ∈ b, t.written_to_backend = true) (ho : ∀ t ∈ out, t.written_to_backend = true) :
    TLogs.WrittenFirst (a ++ out ++ c) := by
  rw [TLogs.WrittenFirst, pairwise_append, pairwise_append] at h
  obtain ⟨x, hx⟩ := exists_mem_of_ne_nil b hne
  have ha : ∀ t ∈ a, t.written_to_backend = true := fun t ht => h.1.2.2 t ht x hx (hb x hx)
  refine .append (fun t ht => ?_) h.2.1
  rcases mem_append.1 ht with ht | ht
  · exact ha t ht
  · exact ho t ht

theorem Trans.writtenFirst (h : Trans False sp sp') (hi : sp.Inv) (hw : sp.allTLogs.WrittenFirst) :
    sp'.allTLogs.WrittenFirst := by
  have hsub : ∀ {l : TLogs}, l.Sublist sp.allTLogs → l.WrittenFirst := fun hl => hw.of_sublist (hl.map _)
  cases h with
  | same => exact hw
  | newTLog => simpa [allTLogs] using hw.concat _
  | snapshot => simpa [allTLogs, Snapshot.make] using hw.concat _
  | spliceLast hs | splice hs => exact hsub (by simp [allTLogs, hs])
  | merge hs ht => exact hsub (by simp [allTLogs, hs, ht])
  | @restore l₁ l₂ s id hs =>
    refine TLogs.WrittenFirst.concat (hsub ?_) id
    simp [allTLogs, hs, ← append_assoc]
  | cutSnapshot _ hs ht => exact hw.of_sublist (by simp [allTLogs, hs, ht, ← append_assoc])
  | cutCurrent _ hc => exact hw.of_sublist (by simp [allTLogs, hc, ← append_assoc])
  | @trimSnapshot l₁ l₂ s id hs =>
    have htake := (takeWhile_sublist (l := s.tlogs) (·.written_to_backend)).trans
      (sublist_append_left s.tlogs (l₂.allTLogs ++ sp.current))
    have := TLogs.WrittenFirst.concat (l := l₁.allTLogs ++ s.tlogs.tlogsOnBackend) (hsub ?_) id
    · simpa [allTLogs] using this
    · simpa [allTLogs, hs, tlogsOnBackend] using htake.append_left l₁.allTLogs
  | @trimCurrent id =>
    have := TLogs.WrittenFirst.concat (l := sp.snapshots.allTLogs ++ sp.current.tlogsOnBackend) (hsub ?_) id
    · simpa [allTLogs] using this
    · exact (takeWhile_sublist _).append_left _
  | mark tid b hb =>
    rw [(setTLogWrittenToBackend_all sp tid b).1, hb.resolve_right id]
    exact hw.set tid
  | @replace l₁ l₂ s out _ hs hws _ hwo =>
    have hne := hi.nonempty s (by rw [hs]; simp)
    have := writtenFirst_replace (a := l₁.allTLogs) (b := s.tlogs) (c := l₂.allTLogs ++ sp.current) out
      (by simpa [allTLogs, hs] using hw) hne (by simpa [Snapshot.writtenToBackend, writtenToBackend] using hws) hwo
    simpa [allTLogs] using this

theorem Reachable.writtenFirst {parent : Option ParentConfig} (h : Reachable LegalOnBackend parent sp) :
    sp.allTLogs.WrittenFirst :=
  (h.trans_induction False (P := fun sp => sp.Inv ∧ sp.allTLogs.WrittenFirst) (fun _ _ hl => hl.1)
    (fun _ tid b hl => .inl (hl.2 tid b rfl))
    (fun scrub_id id => ⟨Inv.init parent scrub_id id, by
      simp [SnapshotPersistor.init, SnapshotPersistor.newTLog, allTLogs, TLogs.WrittenFirst]⟩)
    (fun _ _ hi ht => ⟨hi.1.trans ht, ht.writtenFirst hi.1 hi.2⟩)).2

/-! ## Loading and collecting -/

theorem writtenToBackendVerifier_ok : ∀ {l : TLogs} (seen : Bool), l.WrittenFirst →
    (seen = true → ∀ t ∈ l, t.written_to_backend = false) → ∃ seen', l.foldlM writtenToBackendVerifier seen = .ok seen'
  | [], seen, _, _ => ⟨seen, rfl⟩
  | t :: l, seen, hw, hs => by
    rw [TLogs.WrittenFirst, pairwise_cons] at hw
    rw [foldlM_cons, writtenToBackendVerifier]
    cases ht : t.written_to_backend with
    | true =>
      obtain rfl : seen = false := Bool.eq_false_iff.2 fun h => by rw [hs h t (mem_cons_self ..)] at ht; cases ht
      exact writtenToBackendVerifier_ok _ hw.2 (by simp)
    | false =>
      refine writtenToBackendVerifier_ok true hw.2 fun _ x hx => ?_
      by_contra hne
      rw [hw.1 x hx (by simpa using hne)] at ht
      cases ht

theorem verifySanity_ok (hw : sp.allTLogs.WrittenFirst) : sp.verifySanity = .ok () := by
  have hflat : ∀ (ss : Snapshots) (seen : Bool),
      ss.foldlM (fun seen s => s.tlogs.foldlM writtenToBackendVerifier seen) seen =
        ss.allTLogs.foldlM writtenToBackendVerifier seen := by
    intro ss
    induction ss with
    | nil => intro seen; rfl
    | cons s ss ih =>
      intro seen
      rw [foldlM_cons, Snapshots.allTLogs_cons, foldlM_append]
      exact bind_congr fun seen => ih seen
  obtain ⟨seen, h⟩ := writtenToBackendVerifier_ok false hw (by simp)
  rw [allTLogs, foldlM_append] at h
  unfold verifySanity
  rw [hflat]
  obtain ⟨seen₁, h₁, h₂⟩ := bind_ok h
  rw [h₁, ok_bind, h₂]
  rfl

theorem writtenFirst_current (hw : sp.allTLogs.WrittenFirst) : sp.current.WrittenFirst :=
  hw.sublist (sublist_append_right ..)

theorem writtenFirst_snapshot {s : Snapshot} (hw : sp.allTLogs.WrittenFirst) (hs : s ∈ sp.snapshots) :
    s.tlogs.WrittenFirst := by
  refine hw.sublist (List.Sublist.trans ?_ (sublist_append_left ..))
  exact sublist_flatten_of_mem (mem_map_of_mem hs)

theorem TLogs.isTLogWrittenToBackend_of_mem {l : TLogs} (hn : (l.map (·.id)).Nodup) {t : TLog} (ht : t ∈ l) :
    l.isTLogWrittenToBackend t.id = some t.written_to_backend := by
  unfold TLogs.isTLogWrittenToBackend
  rw [find?_key hn ht]
  rfl

theorem TLogs.isTLogWrittenToBackend_of_not_mem {l : TLogs} {id : TLogId} (h : id ∉ l.map (·.id)) :
    l.isTLogWrittenToBackend id = none := by
  unfold TLogs.isTLogWrittenToBackend
  rw [Option.map_eq_none_iff, List.find?_eq_none]
  intro t ht he
  exact h (mem_map.2 ⟨t, ht, by simpa using he⟩)

theorem Snapshots.isTLogWrittenToBackend_of_mem : ∀ {ss : Snapshots}, (ss.allTLogs.map (·.id)).Nodup →
    ∀ {t : TLog}, t ∈ ss.allTLogs → ss.isTLogWrittenToBackend t.id = t.written_to_backend
  | [], _, t, ht => by cases ht
  | s :: ss, hn, t, ht => by
    rw [Snapshots.allTLogs_cons, map_append, nodup_append] at hn
    rw [Snapshots.isTLogWrittenToBackend]
    rw [Snapshots.allTLogs_cons, mem_append] at ht
    by_cases hs : t ∈ s.tlogs
    · rw [TLogs.isTLogWrittenToBackend_of_mem hn.1 hs]
    · have ht := ht.resolve_left hs
      have hno : t.id ∉ s.tlogs.map (·.id) := fun h => hn.2.2 _ h _ (mem_map_of_mem ht) rfl
      rw [TLogs.isTLogWrittenToBackend_of_not_mem hno]
      exact Snapshots.isTLogWrittenToBackend_of_mem hn.2.1 ht

theorem Inv.isTLogWrittenToBackend (hi : sp.Inv) {t : TLog} (ht : t ∈ sp.allTLogs) :
    sp.isTLogWrittenToBackend t.id = t.written_to_backend := by
  have hn := hi.ids
  rw [SnapshotPersistor.ids, allTLogs, map_append, nodup_append] at hn
  unfold SnapshotPersistor.isTLogWrittenToBackend
  by_cases hc : t ∈ sp.current
  · rw [TLogs.isTLogWrittenToBackend_of_mem hn.2.1 hc]
  · have ht := (mem_append.1 ht).resolve_right hc
    have hno : t.id ∉ sp.current.map (·.id) := fun h => hn.2.2 _ (mem_map_of_mem ht) _ h rfl
    rw [TLogs.isTLogWrittenToBackend_of_not_mem hno]
    exact Snapshots.isTLogWrittenToBackend_of_mem hn.1 ht

/-- Collecting the TLogs with a given mark succeeds and returns exactly those, in order. -/
theorem collectTLogs_ok (written : Bool) : ∀ {l : TLogs} {no_non_written_tlog_seen : Bool} (out : List TLogId),
    l.WrittenFirst → (∀ t ∈ l, sp.isTLogWrittenToBackend t.id = t.written_to_backend) →
    (no_non_written_tlog_seen = false → ∀ t ∈ l, t.written_to_backend = false) →
    sp.collectTLogs written no_non_written_tlog_seen (l.map (·.id)) out =
      .ok (out ++ (l.filter (·.written_to_backend = written)).map (·.id))
  | [], _, out, _, _, _ => by simp [collectTLogs]
  | t :: l, seen, out, hw, hq, hs => by
    rw [TLogs.WrittenFirst, pairwise_cons] at hw
    have hq' : ∀ t ∈ l, sp.isTLogWrittenToBackend t.id = t.written_to_backend :=
      fun x hx => hq x (mem_cons_of_mem _ hx)
    rw [map_cons, collectTLogs, hq t (mem_cons_self ..)]
    cases ht : t.written_to_backend with
    | true =>
      obtain rfl : seen = true := Bool.of_not_eq_false fun h => by rw [hs h t (mem_cons_self ..)] at ht; cases ht
      rw [if_pos rfl, VERIFY_of rfl, ok_bind, collectTLogs_ok written _ hw.2 hq' (by simp)]
      cases written <;> simp [ht]
    | false =>
      rw [if_neg (by simp), collectTLogs_ok written _ hw.2 hq' fun _ x hx => ?_]
      · cases written <;> simp [ht]
      · by_contra hne
        rw [hw.1 x hx (by simpa using hne)] at ht
        cases ht

theorem TLogs.reversedSinceLastCork_skip (cork : Option UUID) (b : List TLog) : ∀ (a : List TLog) (seen : Bool)
    (vec : List TLogId), TLogs.WrittenFirst a.reverse → (seen = true → ∀ t ∈ a, t.written_to_backend = true) →
    (∀ t ∈ a, cork ≠ some t.id) →
    ∃ seen', reversedSinceLastCork cork seen (a ++ b) vec =
      reversedSinceLastCork cork seen' b (vec ++ (a.filter (·.written_to_backend)).map (·.id))
  | [], seen, vec, _, _, _ => ⟨seen, by simp⟩
  | t :: a, seen, vec, hw, hs, hc => by
    rw [reverse_cons, TLogs.WrittenFirst, pairwise_append] at hw
    have hc' : ∀ x ∈ a, cork ≠ some x.id := fun x hx => hc x (mem_cons_of_mem _ hx)
    rw [cons_append, reversedSinceLastCork, if_neg (hc t (mem_cons_self ..))]
    by_cases ht : t.written_to_backend = true
    · -- everything older than a written TLog is written
      have hs' : true = true → ∀ x ∈ a, x.written_to_backend = true := fun _ x hx =>
        hw.2.2 x (mem_reverse.2 hx) t (mem_singleton_self _) ht
      obtain ⟨seen', h⟩ := reversedSinceLastCork_skip cork b a true (vec ++ [t.id]) hw.1 hs' hc'
      exact ⟨seen', by rw [h]; simp [ht]⟩
    · obtain rfl : seen = false := Bool.eq_false_iff.2 fun h => ht (hs h t (mem_cons_self ..))
      obtain ⟨seen', h⟩ := reversedSinceLastCork_skip cork b a false vec hw.1 (by simp) hc'
      exact ⟨seen', by rw [h]; simp [ht]⟩

theorem TLogs.reversedSinceLastCork_no_assertion (cork : Option UUID) (what : String) {l : List TLog}
    (vec : List TLogId) (hw : TLogs.WrittenFirst l.reverse) :
    reversedSinceLastCork cork false l vec ≠ .error (.assertion what) := by
  cases hf : l.find? fun t => decide (cork = some t.id) with
  | none =>
    obtain ⟨seen, h⟩ := reversedSinceLastCork_skip cork [] l false vec hw (by simp) fun t ht => by
      simpa using List.find?_eq_none.1 hf t ht
    rw [append_nil] at h
    simp [h, reversedSinceLastCork]
  | some t =>
    obtain ⟨ht, a, b, rfl, ha⟩ := List.find?_eq_some_iff_append.1 hf
    obtain ⟨seen, h⟩ := reversedSinceLastCork_skip cork (t :: b) a false vec
      (hw.sublist (reverse_sublist.2 (sublist_append_left ..))) (by simp) fun x hx => by simpa using ha x hx
    rw [h, reversedSinceLastCork, if_pos (by simpa using ht)]
    split <;> simp

/-! ## Trimming -/

/-- A trim keeps the written front of all TLogs and starts a new one. -/
theorem trimToBackend_allTLogs (sp : SnapshotPersistor) (id : TLogId) :
    (sp.trimToBackend id).allTLogs = sp.allTLogs.takeWhile (·.written_to_backend) ++ [{ id := id }] := by
  have hall : ∀ {ss : Snapshots}, (∀ s ∈ ss, s.inBackend = true) → ∀ t ∈ ss.allTLogs, t.written_to_backend = true := by
    intro ss h t ht
    obtain ⟨_, hl, ht⟩ := mem_flatten.1 ht
    obtain ⟨s, hs, rfl⟩ := mem_map.1 hl
    exact all_eq_true.1 (h s hs) t ht
  rcases trimToBackend_cases sp id with ⟨hb, h⟩ | ⟨l₁, s, l₂, hs, hb, hnb, h⟩
  · rw [h, allTLogs, allTLogs, takeWhile_append_of_pos (hall hb), append_assoc, tlogsOnBackend]
  · have hne : ¬ (s.tlogs.takeWhile (·.written_to_backend)).length = s.tlogs.length := by
      intro he
      have hall := takeWhile_eq_self_iff.1 ((List.takeWhile_prefix _).eq_of_length he)
      rw [Snapshot.inBackend, all_eq_true.2 hall] at hnb
      cases hnb
    rw [h, allTLogs, allTLogs, hs, Snapshots.allTLogs_append, Snapshots.allTLogs_cons]
    simp only [append_assoc]
    rw [takeWhile_append_of_pos (hall hb), takeWhile_append, if_neg hne, tlogsOnBackend, append_assoc]

/-- In every reachable state the written TLogs come first. The file is accepted when loaded, the
queries on the mark never fail a `VERIFY`, a mark that throws changes nothing, and a trim keeps
exactly the written TLogs. -/
theorem reachable_written_first {parent : Option ParentConfig} {sp : SnapshotPersistor}
    (h : Reachable LegalOnBackend parent sp) :
    (sp.getAllTLogs [] .T).Pairwise
      (fun a b => sp.isTLogWrittenToBackend b = true → sp.isTLogWrittenToBackend a = true) ∧
    sp.verifySanity = .ok () ∧
    (∀ out, ∃ l, sp.getTLogsNotWrittenToBackend out = .ok l) ∧
    (∀ out, ∃ l, sp.getTLogsWrittenToBackend out = .ok l) ∧
    (∀ cork vec what, sp.current.getReversedTLogsOnBackendSinceLastCork cork vec ≠ .error (.assertion what) ∧
      ∀ s ∈ sp.snapshots, s.getReversedTLogsOnBackendSinceLastCork cork vec ≠ .error (.assertion what)) ∧
    (∀ tid e, (sp.setTLogWrittenToBackend tid true).2 = .error e → (sp.setTLogWrittenToBackend tid true).1 = sp) ∧
    (∀ id, sp.Fresh id →
      (sp.trimToBackend id).getAllTLogs [] .T =
        (sp.getAllTLogs [] .T).takeWhile (fun t => sp.isTLogWrittenToBackend t) ++ [id] ∧
      (sp.trimToBackend id).isTLogWrittenToBackend id = false ∧
      ∀ t ∈ (sp.getAllTLogs [] .T).takeWhile (fun t => sp.isTLogWrittenToBackend t),
        (sp.trimToBackend id).isTLogWrittenToBackend t = true) := by
  have hi := h.legal.inv
  have hw := h.writtenFirst
  have hq : ∀ t ∈ sp.allTLogs, sp.isTLogWrittenToBackend t.id = t.written_to_backend :=
    fun t ht => hi.isTLogWrittenToBackend ht
  have hcol : ∀ written out, ∃ l, sp.collectTLogs written true (sp.getAllTLogs [] .T) out = .ok l :=
    fun written out => ⟨_, by rw [hi.getAllTLogs]; exact collectTLogs_ok written out hw hq (by simp)⟩
  refine ⟨?_, verifySanity_ok hw, hcol false, hcol true, fun cork vec what => ⟨?_, fun s hs => ?_⟩, ?_, fun id hf => ?_⟩
  · rw [hi.getAllTLogs, SnapshotPersistor.ids, pairwise_map]
    refine hw.imp_of_mem fun ha hb hab => ?_
    rw [hq _ ha, hq _ hb]; exact hab
  · refine TLogs.reversedSinceLastCork_no_assertion cork what vec ?_
    rw [reverse_reverse]
    exact writtenFirst_current hw
  · rw [Snapshot.getReversedTLogsOnBackendSinceLastCork]
    split
    · simp
    · refine TLogs.reversedSinceLastCork_no_assertion cork what vec ?_
      rw [reverse_reverse]
      exact writtenFirst_snapshot hw hs
  · exact fun tid e he => setTLogWrittenToBackend_throw he
  · have hl : LegalOnBackend sp (.trimToBackend id) := ⟨hf, by simp⟩
    have hi' : (sp.trimToBackend id).Inv := (h.step hl).legal.inv
    have hall := trimToBackend_allTLogs sp id
    have htake : (sp.getAllTLogs [] .T).takeWhile (fun t => sp.isTLogWrittenToBackend t) =
        (sp.allTLogs.takeWhile (·.written_to_backend)).map (·.id) := by
      rw [hi.getAllTLogs, SnapshotPersistor.ids, takeWhile_map]
      exact congrArg _ (takeWhile_congr hq)
    refine ⟨?_, ?_, fun t ht => ?_⟩
    · rw [hi'.getAllTLogs, SnapshotPersistor.ids, hall, htake, map_append]; rfl
    · exact hi'.isTLogWrittenToBackend (t := { id := id }) (by rw [hall]; simp)
    · rw [htake] at ht
      obtain ⟨x, hx, rfl⟩ := mem_map.1 ht
      rw [hi'.isTLogWrittenToBackend (by rw [hall]; simp [hx])]
      exact mem_takeWhile_imp hx

theorem reachable_written_first_snapshot : ∃ sp : SnapshotPersistor,
    sp.snapshots.map (·.writtenToBackend) = [true, false] ∧ sp.verifySanity = .ok () ∧
      (sp.trimToBackend 9).getAllTLogs [] .T = [1, 2, 9] :=
  have h : Reachable LegalOnBackend none (((((((init none 0 1).step (.snapshot "a" [] false 2)).step (.newTLog 3)).step
      (.snapshot "b" [] false 4)).step (.setTLogWrittenToBackend 1 true)).step (.setTLogWrittenToBackend 2 true))) :=
    .step (.step (.step (.step (.step (.init 0 1) ⟨⟨by decide, by decide⟩, by simp⟩) ⟨⟨by decide, by decide⟩, by simp⟩)
      ⟨⟨by decide, by decide⟩, by simp⟩) ⟨trivial, by simp⟩) ⟨trivial, by simp⟩
  ⟨_, by decide, (reachable_written_first h).2.1,
    ((reachable_written_first h).2.2.2.2.2.2 9 ⟨by decide, by decide⟩).1.trans (by decide)⟩

end SnapshotPersistor

end VolumeDriver
