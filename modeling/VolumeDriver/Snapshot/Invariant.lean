/-
The structural invariant of the snapshots file: numbers increase, names and TLog ids are unique,
no TLog list is empty, and a cork names the last TLog of its snapshot or no TLog at all. Then the
order of the TLogs, as the queries that go by snapshot number return it.
-/
import VolumeDriver.Snapshot.Ops

namespace VolumeDriver

open Lib List TLogs
open Snapshot SnapshotPersistor Snapshots

/-- The id of the last TLog. -/
def TLogs.lastId (l : TLogs) : Option TLogId := l.getLast?.map (·.id)

@[simp] theorem TLogs.lastId_append_of_ne_nil (l l₂ : TLogs) (h : l₂ ≠ []) : lastId (l ++ l₂) = lastId l₂ := by
  unfold lastId
  rw [List.getLast?_append_of_ne_nil _ h]

theorem TLogs.lastId_congr {l l₂ : TLogs} (h : l.map (·.id) = l₂.map (·.id)) : lastId l = lastId l₂ := by
  unfold lastId
  rw [← List.getLast?_map, h, List.getLast?_map]

theorem TLogs.lastId_mem {l : TLogs} {id : TLogId} (h : lastId l = some id) : id ∈ l.map (·.id) := by
  unfold lastId at h
  rw [← List.getLast?_map] at h
  exact mem_of_getLast? h

namespace SnapshotPersistor

/-- The ids of all TLogs, those of the snapshots in list order, then the current ones. -/
def ids (sp : SnapshotPersistor) : List TLogId := sp.allTLogs.map (·.id)

/-- The structural invariant. -/
structure Inv (sp : SnapshotPersistor) : Prop where
  keys : (sp.snapshots.map key).Pairwise fun a b => a.1 < b.1 ∧ a.2.1 ≠ b.2.1 ∧ a.2.2 ≠ b.2.2
  current : sp.current ≠ []
  ids : sp.ids.Nodup
  nonempty : ∀ s ∈ sp.snapshots, s.tlogs ≠ []
  corks : ∀ s ∈ sp.snapshots, s.tlogs.lastId = some s.cork_uuid ∨ s.cork_uuid ∉ sp.ids

variable {unmark : Prop} {sp sp' : SnapshotPersistor}

/-! ## One transition -/

theorem mark_frame (sp : SnapshotPersistor) (tid : TLogId) (b : Bool) :
    List.Forall₂ Alike (sp.setTLogWrittenToBackend tid b).1.snapshots sp.snapshots ∧
      (sp.setTLogWrittenToBackend tid b).1.current.map (·.id) = sp.current.map (·.id) := by
  have h := setTLogWrittenToBackend_alike sp.snapshots tid b
  unfold setTLogWrittenToBackend
  rcases hm : sp.snapshots.setTLogWrittenToBackend tid b with ⟨ss, _ | _ | _⟩ <;> rw [hm] at h
  · exact ⟨h, rfl⟩
  · exact ⟨h, setTLogWrittenToBackend_ids sp.current tid b⟩
  · exact ⟨h, rfl⟩

theorem mark_ids (sp : SnapshotPersistor) (tid : TLogId) (b : Bool) :
    (sp.setTLogWrittenToBackend tid b).1.ids = sp.ids := by
  unfold ids
  rw [(setTLogWrittenToBackend_all sp tid b).1, setTLogWrittenToBackend_ids]

section
variable (h : Trans unmark sp sp')
include h

theorem Trans.keys : (sp'.snapshots.map key).Sublist (sp.snapshots.map key) ∨
    (∃ name ∉ sp.snapshots.map (·.name), ∃ metadata scrubbed, sp'.snapshots =
      sp.snapshots ++ [make sp.snapshots.getNextSnapshotNum name sp.current metadata scrubbed]) := by
  cases h with
  | snapshot metadata scrubbed _ hn => exact .inr ⟨_, hn, metadata, scrubbed, rfl⟩
  | mark tid b =>
    have hk : (sp.setTLogWrittenToBackend tid b).1.snapshots.map key = sp.snapshots.map key := by
      rw [← forall₂_eq_eq_eq, forall₂_map_left_iff, forall₂_map_right_iff]
      exact (mark_frame sp tid b).1.imp fun _ _ h => h.1
    rw [hk]; exact .inl (List.Sublist.refl _)
  | merge hs _ h1 h2 h3 =>
    left
    rw [hs]
    simp [key, h1, h2, h3]
  | splice hs => left; rw [hs]; simp [key]
  | spliceLast hs | restore hs | cutSnapshot _ hs | trimSnapshot hs | replace _ hs =>
    left; rw [hs]; simp [key]
  | same | newTLog | cutCurrent | trimCurrent => exact .inl (List.Sublist.refl _)

/-- The ids after a transition: some of those before, and in one place some fresh ones. -/
theorem Trans.ids : ∃ a n c, sp'.ids = a ++ n ++ c ∧ (a ++ c).Sublist sp.ids ∧ n.Nodup ∧ ∀ i ∈ n, sp.Fresh i := by
  have hsub : ∀ {l : List TLogId}, l = sp'.ids → l.Sublist sp.ids →
      ∃ a n c, sp'.ids = a ++ n ++ c ∧ (a ++ c).Sublist sp.ids ∧ n.Nodup ∧ ∀ i ∈ n, sp.Fresh i :=
    fun {l} he hl => ⟨l, [], [], by simp [he], by simpa using hl, nodup_nil, by simp⟩
  have happ : ∀ {l : List TLogId} {id : TLogId}, l ++ [id] = sp'.ids → l.Sublist sp.ids → sp.Fresh id →
      ∃ a n c, sp'.ids = a ++ n ++ c ∧ (a ++ c).Sublist sp.ids ∧ n.Nodup ∧ ∀ i ∈ n, sp.Fresh i :=
    fun {l id} he hl hf => ⟨l, [id], [], by simp [he], by simpa using hl, nodup_singleton _, by simpa using hf⟩
  unfold SnapshotPersistor.ids SnapshotPersistor.allTLogs at hsub happ ⊢
  cases h with
  | same => exact hsub rfl (List.Sublist.refl _)
  | newTLog hf => exact happ (by simp) (List.Sublist.refl _) hf
  | snapshot _ _ hf => exact happ (by simp [make]) (List.Sublist.refl _) hf
  | spliceLast hs | splice hs => exact hsub rfl (by simp [hs])
  | merge hs ht => exact hsub rfl (by simp [hs, ht])
  | @restore l₁ l₂ s id hs hf =>
    refine happ (l := (l₁ ++ [s]).allTLogs.map (·.id)) (by simp) ?_ hf
    simp [hs, ← append_assoc]
  | cutSnapshot _ hs ht => exact hsub rfl (by simp [hs, ht, ← append_assoc])
  | cutCurrent _ hc => exact hsub rfl (by simp [hc, ← append_assoc])
  | @trimSnapshot l₁ l₂ s id hs hf =>
    refine happ (l := (l₁.allTLogs ++ s.tlogs.tlogsOnBackend).map (·.id)) (by simp) ?_ hf
    have := (takeWhile_sublist (l := s.tlogs) (·.written_to_backend)).trans
      (sublist_append_left s.tlogs (l₂.allTLogs ++ sp.current))
    rw [hs]
    simpa [tlogsOnBackend] using (this.append_left l₁.allTLogs).map (·.id)
  | trimCurrent hf =>
    refine happ (l := (sp.snapshots.allTLogs ++ sp.current.tlogsOnBackend).map (·.id)) (by simp) ?_ hf
    exact ((takeWhile_sublist _).append_left _).map _
  | mark tid b => exact hsub rfl (by rw [← SnapshotPersistor.allTLogs, ← SnapshotPersistor.ids, mark_ids]; rfl)
  | @replace l₁ l₂ s out _ hs _ _ _ hnd hf =>
    refine ⟨l₁.allTLogs.map (·.id), out.map (·.id), (l₂.allTLogs ++ sp.current).map (·.id), by simp, ?_, hnd, ?_⟩
    · rw [hs]; simp
    · simpa using hf

theorem Trans.mem_ids {i : TLogId} (hi : i ∈ sp'.ids) : i ∈ sp.ids ∨ sp.Fresh i := by
  obtain ⟨a, n, c, he, hs, _, hf⟩ := h.ids
  rw [he, mem_append, mem_append] at hi
  rcases hi with (hi | hi) | hi
  · exact .inl (hs.subset (by simp [hi]))
  · exact .inr (hf i hi)
  · exact .inl (hs.subset (by simp [hi]))

theorem Trans.ids_nodup (hn : sp.ids.Nodup) : sp'.ids.Nodup := by
  obtain ⟨a, n, c, he, hs, hnn, hf⟩ := h.ids
  have hac := nodup_append.1 (hs.nodup hn)
  have hd : ∀ i ∈ n, i ∉ a ∧ i ∉ c := fun i hi =>
    ⟨fun ha => (hf i hi).1 (hs.subset (by simp [ha])), fun hc => (hf i hi).1 (hs.subset (by simp [hc]))⟩
  rw [he, append_assoc, nodup_append, nodup_append]
  refine ⟨hac.1, ⟨hnn, hac.2.1, fun i hi j hj hij => (hd i hi).2 (hij ▸ hj)⟩, fun i hi j hj hij => ?_⟩
  rcases mem_append.1 hj with hj | hj
  · exact (hd j hj).1 (hij ▸ hi)
  · exact hac.2.2 i hi j hj hij

theorem Trans.current (hi : sp.current ≠ []) : sp'.current ≠ [] := by
  cases h with
  | mark tid b =>
    intro he
    have := (mark_frame sp tid b).2
    rw [he] at this
    exact hi (by simpa using this.symm)
  | _ => simp [hi]

end

variable {l₁ l₂ : Snapshots} {s : Snapshot}

/-- Once a scrub has replaced the TLogs of a snapshot, its cork names no TLog. -/
theorem cork_replaced (hi : sp.Inv) {t : Snapshot} {out : TLogs} {scrub_id : ScrubId}
    (hs : sp.snapshots = l₁ ++ t :: l₂) (hf : ∀ x ∈ out, sp.Fresh x.id) :
    t.cork_uuid ∉ ids
      { sp with snapshots := l₁ ++ { t with tlogs := out } :: l₂, scrub_id := scrub_id } := by
  have ht : t ∈ sp.snapshots := by rw [hs]; simp
  have hnd := hi.ids
  intro hm
  simp only [ids, allTLogs, hs, allTLogs_append, allTLogs_cons, map_append, mem_append] at hm hnd
  have hout : t.cork_uuid ∉ out.map (·.id) := by
    intro ho
    obtain ⟨x, hx, he⟩ := mem_map.1 ho
    exact (hf x hx).2 (he ▸ mem_map_of_mem ht)
  rcases hi.corks t ht with hl | hl
  · have hl := lastId_mem hl
    grind
  · simp only [ids, allTLogs, hs, allTLogs_append, allTLogs_cons, map_append, mem_append] at hl
    tauto

/-- A snapshot after a transition has its cork from one before, with the same last TLog or other
TLogs altogether, or is new and named by its last TLog. -/
theorem Trans.snapshots (h : Trans unmark sp sp') (hi : sp.Inv) {s' : Snapshot} (hs' : s' ∈ sp'.snapshots) :
    s'.tlogs ≠ [] ∧ (s'.tlogs.lastId = some s'.cork_uuid ∨ ∃ s ∈ sp.snapshots, s'.cork_uuid = s.cork_uuid ∧
      (s'.tlogs.lastId = s.tlogs.lastId ∨ s.cork_uuid ∉ sp'.ids)) := by
  have hold : s' ∈ sp.snapshots → s'.tlogs ≠ [] ∧ (s'.tlogs.lastId = some s'.cork_uuid ∨
      ∃ s ∈ sp.snapshots, s'.cork_uuid = s.cork_uuid ∧ (s'.tlogs.lastId = s.tlogs.lastId ∨ s.cork_uuid ∉ sp'.ids)) :=
    fun hm => ⟨hi.nonempty s' hm, .inr ⟨s', hm, rfl, .inl rfl⟩⟩
  cases h with
  | same | newTLog | cutCurrent | trimCurrent => exact hold hs'
  | snapshot =>
    rcases mem_append.1 hs' with hm | hm
    · exact hold hm
    · rw [mem_singleton] at hm
      subst hm
      refine ⟨hi.current, .inl ?_⟩
      rcases eq_nil_or_concat sp.current with hc | ⟨l, t, ht⟩
      · exact absurd hc hi.current
      · simp [make, lastId, ht]
  | spliceLast hs | restore hs | cutSnapshot _ hs | trimSnapshot hs => exact hold (by rw [hs]; simp at hs' ⊢; tauto)
  | @splice l₁ l₂ s t hs =>
    have ht : t ∈ sp.snapshots := by rw [hs]; simp
    simp only [mem_append, mem_cons] at hs'
    rcases hs' with hm | rfl | hm
    · exact hold (by rw [hs]; simp [hm])
    · have hne := hi.nonempty t ht
      exact ⟨by simp [hne], .inr ⟨t, ht, rfl, .inl (lastId_append_of_ne_nil _ _ hne)⟩⟩
    · exact hold (by rw [hs]; simp [hm])
  | @merge l t t' hs htl _ _ hc =>
    have ht : t ∈ sp.snapshots := by rw [hs]; simp
    have hne := hi.nonempty t ht
    rw [mem_singleton] at hs'
    subst hs'
    exact ⟨by simp [htl, hne], .inr ⟨t, ht, hc, .inl (by rw [htl, lastId_append_of_ne_nil _ _ hne])⟩⟩
  | mark tid b =>
    obtain ⟨s, hs, hk, hids⟩ := exists_of_forall₂_left (mark_frame sp tid b).1 hs'
    refine ⟨fun he => hi.nonempty s hs ?_, .inr ⟨s, hs, congrArg (·.2.2) hk, .inl (lastId_congr hids)⟩⟩
    rw [he] at hids
    simpa using hids.symm
  | @replace l₁ l₂ t out scrub_id hs hw hne hwo hnd hf =>
    have ht : t ∈ sp.snapshots := by rw [hs]; simp
    simp only [mem_append, mem_cons] at hs'
    rcases hs' with hm | rfl | hm
    · exact hold (by rw [hs]; simp [hm])
    · exact ⟨hne, .inr ⟨t, ht, rfl, .inr (cork_replaced hi hs hf)⟩⟩
    · exact hold (by rw [hs]; simp [hm])

theorem Snapshots.num_lt_next {ss : Snapshots} (h : (ss.map (·.num)).Pairwise (· < ·)) {n : SnapshotNum}
    (hn : n ∈ ss.map (·.num)) : n < ss.getNextSnapshotNum := by
  rcases eq_nil_or_concat ss with rfl | ⟨l, s, rfl⟩
  · cases hn
  · simp only [concat_eq_append, map_append, map_cons, map_nil, pairwise_append, mem_append, mem_singleton] at h hn ⊢
    have hnext : getNextSnapshotNum (l ++ [s]) = s.num + 1 := by
      simp [getNextSnapshotNum]
    rw [hnext]
    rcases hn with hn | rfl
    · exact Nat.lt_succ_of_lt (h.2.2 n hn s.num rfl)
    · exact Nat.lt_succ_self _

theorem Inv.nums (hi : sp.Inv) : (sp.snapshots.map (·.num)).Pairwise (· < ·) := by
  have h := hi.keys
  rw [pairwise_map] at h ⊢
  exact h.imp fun h => h.1

theorem Inv.names (hi : sp.Inv) : (sp.snapshots.map (·.name)).Nodup := by
  have h := hi.keys
  rw [pairwise_map] at h
  rw [List.Nodup, pairwise_map]
  exact h.imp fun h => h.2.1

/-- The number of a new snapshot is the next one, its name was checked, its cork is the id of a current TLog. -/
theorem Inv.keys_snapshot (hi : sp.Inv) {name : SnapshotName} (hn : name ∉ sp.snapshots.map (·.name))
    (metadata : List UInt8) (scrubbed : Bool) :
    ((sp.snapshots ++ [make sp.snapshots.getNextSnapshotNum name sp.current metadata scrubbed]).map
      key).Pairwise fun a b => a.1 < b.1 ∧ a.2.1 ≠ b.2.1 ∧ a.2.2 ≠ b.2.2 := by
  rw [map_append, pairwise_append]
  refine ⟨hi.keys, by simp, fun k hk k' hk' => ?_⟩
  obtain ⟨s, hs, rfl⟩ := mem_map.1 hk
  simp only [map_cons, map_nil, mem_singleton] at hk'
  subst hk'
  refine ⟨Snapshots.num_lt_next hi.nums (mem_map_of_mem hs), fun he => hn ?_, ?_⟩
  · exact mem_map.2 ⟨s, hs, he⟩
  · rcases eq_nil_or_concat sp.current with hc | ⟨l, t, ht⟩
    · exact absurd hc hi.current
    · have hnd := hi.ids
      have hmem : t.id ∈ sp.ids := by simp [SnapshotPersistor.ids, allTLogs, ht]
      simp only [key, make, ht, concat_eq_append, List.getLast?_append, List.getLast?_singleton,
        Option.some_or, Option.map_some, Option.getD_some]
      rcases hi.corks s hs with hl | hl
      · have hl := lastId_mem hl
        simp only [SnapshotPersistor.ids, allTLogs, map_append, nodup_append] at hnd
        refine hnd.2.2 s.cork_uuid ?_ t.id (by simp [ht])
        obtain ⟨x, hx, he⟩ := mem_map.1 hl
        exact mem_map.2 ⟨x, mem_flatten.2 ⟨s.tlogs, mem_map_of_mem hs, hx⟩, he⟩
      · exact fun he => hl (he ▸ hmem)

theorem Inv.trans (hi : sp.Inv) (h : Trans unmark sp sp') : sp'.Inv where
  keys := by
    rcases h.keys with hk | ⟨name, hn, metadata, scrubbed, hs⟩
    · exact hi.keys.sublist hk
    · rw [hs]; exact hi.keys_snapshot hn metadata scrubbed
  current := h.current hi.current
  ids := h.ids_nodup hi.ids
  nonempty := fun s' hs' => (h.snapshots hi hs').1
  corks := fun s' hs' => by
    rcases (h.snapshots hi hs').2 with hl | ⟨s, hs, hc, hl | hl⟩
    · exact .inl hl
    · rw [hl, hc]
      refine (hi.corks s hs).imp id fun hno hm => ?_
      rcases h.mem_ids hm with hm | hm
      · exact hno hm
      · exact hm.2 (mem_map_of_mem hs)
    · rw [hc]; exact .inr hl

theorem Inv.init (parent : Option ParentConfig) (scrub_id : ScrubId) (id : TLogId) :
    (SnapshotPersistor.init parent scrub_id id).Inv := by
  constructor <;> simp [SnapshotPersistor.init, SnapshotPersistor.newTLog, SnapshotPersistor.ids, allTLogs]

theorem Reachable.inv {parent : Option ParentConfig} (h : Reachable Legal parent sp) : sp.Inv :=
  h.trans_induction True (fun _ _ hl => hl) (fun _ _ _ _ => .inr trivial) (Inv.init parent)
    fun _ _ hi ht => hi.trans ht

/-! ## The queries that go by number -/

theorem foldl_getTLogsInSnapshot {ss : Snapshots} (hn : (ss.map (·.num)).Nodup) : ∀ (l : Snapshots) (vec : List TLogId),
    (∀ s ∈ l, s ∈ ss) →
      (l.map (·.num)).foldl (fun vec num => ss.getTLogsInSnapshot num vec) vec = vec ++ l.allTLogs.map (·.id)
  | [], vec, _ => by simp
  | s :: l, vec, h => by
    rw [map_cons, foldl_cons, foldl_getTLogsInSnapshot hn l _ fun x hx => h x (mem_cons_of_mem _ hx),
      getTLogsInSnapshot, find_num_of_mem (h s (mem_cons_self ..)) hn]
    simp [getOrderedTLogIds]

theorem Inv.getAllTLogs (hi : sp.Inv) : sp.getAllTLogs [] .T = sp.ids := by
  have hsort : sp.snapshots.getAllSnapshots.insertionSort (· ≤ ·) = sp.snapshots.map (·.num) :=
    List.Pairwise.insertionSort_eq (hi.nums.imp fun h => h.le)
  simp only [SnapshotPersistor.getAllTLogs]
  rw [hsort, foldl_getTLogsInSnapshot (hi.nums.imp fun h => Nat.ne_of_lt h) _ _ fun _ h => h]
  simp [getCurrentTLogs, getOrderedTLogIds, SnapshotPersistor.ids, allTLogs]

theorem Snapshots.tlogsAfterSnapshot_append (hn : s.num ∉ l₁.map (·.num)) :
    ∀ out, Snapshots.tlogsAfterSnapshot (l₁ ++ s :: l₂) s.num out =
      .ok ((Snapshots.allTLogs l₁.reverse).map (·.id) ++ out.reverse) := by
  induction l₁ with
  | nil => intro out; simp [Snapshots.tlogsAfterSnapshot]
  | cons x l₁ ih =>
    intro out
    simp only [map_cons, mem_cons, not_or] at hn
    simp [Snapshots.tlogsAfterSnapshot, Ne.symm hn.1, ih hn.2, getReverseOrderedTLogIds]

theorem Inv.till_after (hi : sp.Inv) (hs : s ∈ sp.snapshots) :
    ∃ till after, sp.getTLogsTillSnapshot s.num [] = .ok till ∧ sp.getTLogsAfterSnapshot s.num [] = .ok after ∧
      till ++ after = sp.ids := by
  obtain ⟨l₁, l₂, hl⟩ := append_of_mem hs
  have hnums := hi.nums
  rw [hl, map_append, map_cons, pairwise_append, pairwise_cons] at hnums
  have h1 : s.num ∉ l₁.map (·.num) := fun h => Nat.lt_irrefl _ (hnums.2.2 _ h _ (mem_cons_self ..))
  have h2 : s.num ∉ l₂.reverse.map (·.num) := fun h =>
    Nat.lt_irrefl _ (hnums.2.1.1 _ (by simpa using h))
  refine ⟨(Snapshots.allTLogs l₁ ++ s.tlogs).map (·.id), (Snapshots.allTLogs l₂ ++ sp.current).map (·.id), ?_, ?_, ?_⟩
  · rw [SnapshotPersistor.getTLogsTillSnapshot, hl, Snapshots.getTLogsTillSnapshot_append h1, nil_append]
  · rw [SnapshotPersistor.getTLogsAfterSnapshot, Snapshots.getTLogsAfterSnapshot, hl, reverse_append,
      reverse_cons, append_assoc, singleton_append, Snapshots.tlogsAfterSnapshot_append h2]
    simp [getOrderedTLogIds]
  · simp [SnapshotPersistor.ids, allTLogs, hl]

theorem deleteSnapshot_allTLogs {num : SnapshotNum} (h : sp.deleteSnapshot num = .ok sp') :
    sp'.allTLogs = sp.allTLogs := by
  obtain ⟨⟨ss, io⟩, hss, h⟩ := bind_ok h
  cases pure_ok h
  rcases deleteSnapshot_ok hss with ⟨l, s, hs, rfl, rfl⟩ | ⟨l₁, s, s', l₂, hs, rfl, rfl⟩ <;>
    simp [allTLogs, hs]

theorem deleteAllButLastSnapshot_allTLogs (h : sp.deleteAllButLastSnapshot = .ok sp') : sp'.allTLogs = sp.allTLogs := by
  obtain ⟨ss, hss, h⟩ := bind_ok h
  cases pure_ok h
  obtain ⟨l, s, s', hs, rfl, h1, _⟩ := deleteAllButLastSnapshot_ok hss
  simp [allTLogs, hs, h1]

/-- In every reachable state the snapshot numbers increase, names and TLog ids are unique, there
is a current TLog, and all TLogs are those of the snapshots in list order and the current ones.
Deletion of snapshots leaves that list alone, and any snapshot splits it in two. -/
theorem reachable_structure {parent : Option ParentConfig} {sp : SnapshotPersistor}
    (h : Reachable Legal parent sp) :
    (sp.snapshots.map (·.num)).Pairwise (· < ·) ∧
    (sp.snapshots.map (·.name)).Nodup ∧
    sp.current ≠ [] ∧
    (sp.allTLogs.map (·.id)).Nodup ∧
    sp.getAllTLogs [] .T = (sp.snapshots.map fun s => s.tlogs.map (·.id)).flatten ++ sp.current.map (·.id) ∧
    (∀ num, (sp.step (.deleteSnapshot num)).getAllTLogs [] .T = sp.getAllTLogs [] .T) ∧
    (sp.step .deleteAllButLastSnapshot).getAllTLogs [] .T = sp.getAllTLogs [] .T ∧
    (∀ s ∈ sp.snapshots, ∃ till after, sp.getTLogsTillSnapshot s.num [] = .ok till ∧
      sp.getTLogsAfterSnapshot s.num [] = .ok after ∧ till ++ after = sp.getAllTLogs [] .T) := by
  have hi := h.inv
  have hstep : ∀ op, Legal sp op → (sp.step op).allTLogs = sp.allTLogs →
      (sp.step op).getAllTLogs [] .T = sp.getAllTLogs [] .T := fun op hl he => by
    rw [hi.getAllTLogs, (h.step hl).inv.getAllTLogs, ids, he, ids]
  refine ⟨hi.nums, hi.names, hi.current, hi.ids, ?_, fun num => hstep _ trivial ?_, hstep _ trivial ?_, fun s hs => ?_⟩
  · rw [hi.getAllTLogs]
    simp [ids, allTLogs, Snapshots.allTLogs, Function.comp_def]
  · rw [step]
    cases hd : sp.deleteSnapshot num with
    | error e => rfl
    | ok sp' => exact deleteSnapshot_allTLogs hd
  · rw [step]
    cases hd : sp.deleteAllButLastSnapshot with
    | error e => rfl
    | ok sp' => exact deleteAllButLastSnapshot_allTLogs hd
  · rw [hi.getAllTLogs]
    exact hi.till_after hs

theorem reachable_structure_snapshot : ∃ sp : SnapshotPersistor, sp.snapshots.length = 1 ∧
    (sp.allTLogs.map (·.id)).Nodup ∧ sp.getAllTLogs [] .T = [1, 2, 3] :=
  have h : Reachable Legal none (((init none 0 1).step (.newTLog 2)).step (.snapshot "s" [] false 3)) :=
    .step (.step (.init 0 1) ⟨by decide, by decide⟩) ⟨by decide, by decide⟩
  ⟨_, by decide, (reachable_structure h).2.2.2.1, (reachable_structure h).2.2.2.2.1.trans (by decide)⟩

end SnapshotPersistor

end VolumeDriver
