/-
Corks in the snapshots file. A cork names a TLog: by its id, or as the cork of the snapshot that
ends with it. `getTLogsOnBackendSinceLastCork` returns the written TLogs after the one that a cork
names. `lastCork` names the last written TLog, unless a snapshot is only partly on the backend:
then it names the end of the snapshot before.
-/
import VolumeDriver.Snapshot.Written

namespace VolumeDriver

open Lib List TLogs

namespace SnapshotPersistor

variable {sp : SnapshotPersistor}

/-! ## Definitions -/

/-- The ids of the written TLogs, in order. -/
def written (sp : SnapshotPersistor) : List TLogId := (sp.allTLogs.filter (·.written_to_backend)).map (·.id)

/-- `cork` names the TLog `id`. -/
def Names (sp : SnapshotPersistor) (cork : UUID) (id : TLogId) : Prop :=
  (cork = id ∧ id ∈ sp.ids) ∨ ∃ s ∈ sp.snapshots, s.cork_uuid = cork ∧ s.tlogs.lastId = some id

/-- No snapshot has some, but not all, of its TLogs on the backend. -/
def NonePartial (sp : SnapshotPersistor) : Prop :=
  ∀ s ∈ sp.snapshots, s.writtenToBackend = true ∨ ∀ t ∈ s.tlogs, t.written_to_backend = false

/-! ## The search -/

theorem TLogs.getReversed_of_not_mem {l : TLogs} (hw : l.WrittenFirst) {cork : Option UUID}
    (hc : ∀ t ∈ l, cork ≠ some t.id) (vec : List TLogId) :
    l.getReversedTLogsOnBackendSinceLastCork cork vec =
      .ok (false, vec ++ ((l.filter (·.written_to_backend)).map (·.id)).reverse) := by
  obtain ⟨seen, h⟩ := reversedSinceLastCork_skip cork [] l.reverse false vec (by simpa using hw) (by simp)
    fun t ht => hc t (mem_reverse.1 ht)
  unfold getReversedTLogsOnBackendSinceLastCork
  rw [append_nil] at h
  rw [h, reversedSinceLastCork, filter_reverse, map_reverse]

variable {a b : TLogs} {t : TLog} {s : Snapshot} {id : TLogId} {cork : UUID}

theorem TLogs.getReversed_of_mem (hw : TLogs.WrittenFirst (a ++ t :: b)) (hn : ((a ++ t :: b).map (·.id)).Nodup)
    (ht : t.written_to_backend = true) (vec : List TLogId) :
    getReversedTLogsOnBackendSinceLastCork (a ++ t :: b) (some t.id) vec =
      .ok (true, vec ++ ((b.filter (·.written_to_backend)).map (·.id)).reverse) := by
  have hb : ∀ x ∈ b.reverse, some t.id ≠ some x.id := by
    intro x hx he
    rw [map_append, nodup_append, map_cons, nodup_cons] at hn
    apply hn.2.1.1
    rw [Option.some.inj he]
    exact mem_map_of_mem (mem_reverse.1 hx)
  have hwb : TLogs.WrittenFirst b.reverse.reverse := by
    rw [reverse_reverse]
    exact hw.sublist ((sublist_cons_self t b).trans (sublist_append_right ..))
  obtain ⟨seen, h⟩ := reversedSinceLastCork_skip (some t.id) (t :: a.reverse) b.reverse false vec hwb (by simp) hb
  have hrev : (a ++ t :: b).reverse = b.reverse ++ t :: a.reverse := by simp
  unfold getReversedTLogsOnBackendSinceLastCork
  rw [hrev, h, reversedSinceLastCork, if_pos rfl, if_neg (by simp [ht]), filter_reverse, map_reverse]

/-- Snapshots that the cork does not name a TLog of are collected as a whole, newest first. -/
theorem sinceLastCork_skip (cork : Option UUID) (older : Snapshots) : ∀ (newer : Snapshots) (vec : List TLogId),
    (∀ s ∈ newer, s.tlogs.WrittenFirst ∧ (cork = some s.cork_uuid → s.writtenToBackend = false) ∧
      ∀ t ∈ s.tlogs, cork ≠ some t.id) →
    sinceLastCork cork (newer ++ older) vec = sinceLastCork cork older
      (vec ++ (((Snapshots.allTLogs newer.reverse).filter (·.written_to_backend)).map (·.id)).reverse)
  | [], vec, _ => by simp [Snapshots.allTLogs]
  | s :: newer, vec, h => by
    obtain ⟨hw, hcork, hids⟩ := h s (mem_cons_self ..)
    have hskip : ¬ (cork = some s.cork_uuid ∧ s.writtenToBackend = true) := by
      rintro ⟨hc, hwr⟩
      rw [hcork hc] at hwr; cases hwr
    rw [cons_append, sinceLastCork, Snapshot.getReversedTLogsOnBackendSinceLastCork, if_neg hskip,
      TLogs.getReversed_of_not_mem hw hids, ok_bind]
    show sinceLastCork cork (newer ++ older) _ = _
    rw [sinceLastCork_skip cork older newer _ fun x hx => h x (mem_cons_of_mem _ hx)]
    simp

theorem getTLogs_of_not_current (hp : sp.parent = none) (hw : sp.current.WrittenFirst) {cork : Option UUID}
    (hc : ∀ t ∈ sp.current, cork ≠ some t.id) :
    sp.getTLogsOnBackendSinceLastCork cork none = (do
      let (found, tlog_names) ← sinceLastCork cork sp.snapshots.reverse
        ((sp.current.filter (·.written_to_backend)).map (·.id)).reverse
      if found then pure tlog_names.reverse
      else if cork = none then pure tlog_names.reverse
      else throw .corkNotFound) := by
  unfold getTLogsOnBackendSinceLastCork
  rw [VERIFY_of (by simp [hp]), ok_bind, TLogs.getReversed_of_not_mem hw hc, nil_append]
  rfl

theorem getTLogs_none (hp : sp.parent = none) (hw : sp.allTLogs.WrittenFirst) :
    sp.getTLogsOnBackendSinceLastCork none none = .ok sp.written := by
  rw [getTLogs_of_not_current hp (writtenFirst_current hw) (by simp)]
  have h := sinceLastCork_skip none [] sp.snapshots.reverse
    ((sp.current.filter (·.written_to_backend)).map (·.id)).reverse fun s hs =>
      ⟨writtenFirst_snapshot hw (mem_reverse.1 hs), by simp, by simp⟩
  rw [append_nil] at h
  rw [h, reverse_reverse]
  simp [sinceLastCork, written, allTLogs]

theorem Inv.snapshot_ids (hi : sp.Inv) {l₁ l₂ : Snapshots} (hs : sp.snapshots = l₁ ++ s :: l₂)
    (hid : id ∈ s.tlogs.map (·.id)) :
    id ∉ (Snapshots.allTLogs l₁).map (·.id) ∧ id ∉ (Snapshots.allTLogs l₂).map (·.id) ∧ id ∉ sp.current.map (·.id) := by
  have hn := hi.ids
  rw [SnapshotPersistor.ids, allTLogs, hs, Snapshots.allTLogs_append, Snapshots.allTLogs_cons] at hn
  simp only [map_append, nodup_append, mem_append] at hn
  obtain ⟨⟨h1, ⟨h2, h3, h23⟩, h123⟩, h4, h1234⟩ := hn
  refine ⟨fun h => ?_, fun h => ?_, fun h => ?_⟩
  · exact h123 id h id (Or.inl hid) rfl
  · exact h23 id hid id h rfl
  · exact h1234 id (Or.inr (Or.inl hid)) id h rfl

theorem Inv.corks_nodup (hi : sp.Inv) : (sp.snapshots.map (·.cork_uuid)).Nodup := by
  have h := hi.keys
  rw [pairwise_map] at h
  rw [List.Nodup, pairwise_map]
  exact h.imp fun h => h.2.2

theorem Inv.names_self (hi : sp.Inv) {x : TLog} (hx : x ∈ sp.allTLogs) (hc : sp.Names x.id t.id) : x.id = t.id := by
  rcases hc with ⟨he, -⟩ | ⟨s, hs, hcork, hlast⟩
  · exact he
  · rcases hi.corks s hs with h | h
    · rw [h] at hlast
      rw [← hcork]; exact Option.some.inj hlast
    · rw [hcork] at h
      exact absurd (mem_map_of_mem hx) h

/-- A cork of a snapshot that names a TLog names the last one of that snapshot. -/
theorem Inv.cork_names (hi : sp.Inv) (hs : s ∈ sp.snapshots) (hn : sp.Names s.cork_uuid id) :
    s.tlogs.lastId = some id := by
  rcases hn with ⟨he, hid⟩ | ⟨s', hs', hc, hlast⟩
  · rcases hi.corks s hs with h | h
    · rw [h, he]
    · rw [he] at h
      exact absurd hid h
  · -- corks of different snapshots differ
    have heq : s' = s := inj_on_of_nodup_map hi.corks_nodup hs' hs hc
    rw [← heq]; exact hlast

theorem TLogs.eq_nil_of_lastId (hn : ((a ++ t :: b).map (·.id)).Nodup)
    (hl : lastId (a ++ t :: b) = some t.id) : b = [] := by
  rcases eq_nil_or_concat' b with h | ⟨b', x, hb⟩
  · exact h
  · exfalso
    subst hb
    rw [← cons_append, ← append_assoc, lastId_append_of_ne_nil _ _ (by simp)] at hl
    have hx : x.id = t.id := by simpa [lastId] using hl
    simp only [map_append, map_cons, nodup_append, nodup_cons, mem_append] at hn
    apply hn.2.1.1
    simp [hx]

theorem Inv.snapshot_unique (hi : sp.Inv) {s' : Snapshot} (hs : s ∈ sp.snapshots) (hs' : s' ∈ sp.snapshots)
    (hid : id ∈ s.tlogs.map (·.id)) (hid' : id ∈ s'.tlogs.map (·.id)) : s' = s := by
  obtain ⟨l₁, l₂, hsplit⟩ := append_of_mem hs
  obtain ⟨hid₁, hid₂, -⟩ := hi.snapshot_ids hsplit hid
  have hall : ∀ {l : Snapshots}, s' ∈ l → id ∈ (Snapshots.allTLogs l).map (·.id) := by
    intro l hl
    obtain ⟨t, ht, rfl⟩ := mem_map.1 hid'
    exact mem_map_of_mem (mem_flatten_of_mem (mem_map_of_mem hl) ht)
  rw [hsplit, mem_append, mem_cons] at hs'
  rcases hs' with h | h | h
  · exact absurd (hall h) hid₁
  · exact h
  · exact absurd (hall h) hid₂

/-- In the snapshot of the TLog that the cork names, what comes after it is collected. -/
theorem Inv.getReversed_snapshot (hi : sp.Inv) (hw : sp.allTLogs.WrittenFirst) (hs : s ∈ sp.snapshots)
    (hab : s.tlogs = a ++ t :: b) (hwr : t.written_to_backend = true)
    (hc : sp.Names cork t.id) (vec : List TLogId) :
    s.getReversedTLogsOnBackendSinceLastCork (some cork) vec =
      .ok (true, vec ++ ((b.filter (·.written_to_backend)).map (·.id)).reverse) := by
  have hws := writtenFirst_snapshot hw hs
  have hns : (s.tlogs.map (·.id)).Nodup := by
    refine hi.ids.sublist (List.Sublist.map _ (List.Sublist.trans ?_ (sublist_append_left ..)))
    exact sublist_flatten_of_mem (mem_map_of_mem hs)
  have hid : t.id ∈ s.tlogs.map (·.id) := by rw [hab]; simp
  unfold Snapshot.getReversedTLogsOnBackendSinceLastCork
  by_cases hcork : cork = s.cork_uuid
  · -- the snapshot's own cork: `t` is its last TLog, and all before it are written
    subst hcork
    have hlast := hi.cork_names hs hc
    rw [hab] at hlast hns
    obtain rfl := TLogs.eq_nil_of_lastId hns hlast
    have hall : s.writtenToBackend = true := by
      rw [Snapshot.writtenToBackend, TLogs.writtenToBackend, all_eq_true]
      intro x hx
      rw [hab, TLogs.WrittenFirst, pairwise_append] at hws
      rw [hab, mem_append, mem_singleton] at hx
      rcases hx with hx | rfl
      · exact hws.2.2 x hx t (mem_singleton_self _) hwr
      · exact hwr
    rw [if_pos ⟨rfl, hall⟩]
    simp
  · have hct : cork = t.id := by
      rcases hc with ⟨he, -⟩ | ⟨s', hs', hc', hlast⟩
      · exact he
      · rw [hi.snapshot_unique hs hs' hid (TLogs.lastId_mem hlast)] at hc'
        exact absurd hc'.symm hcork
    subst hct
    rw [if_neg fun h => hcork (Option.some.inj h.1), hab]
    rw [hab] at hws hns
    exact TLogs.getReversed_of_mem hws hns hwr vec

/-- With a cork, the written TLogs after the one it names are returned. -/
theorem Inv.getTLogs_names (hi : sp.Inv) (hp : sp.parent = none) (hw : sp.allTLogs.WrittenFirst)
    (ht : t ∈ sp.allTLogs) (hwr : t.written_to_backend = true) (hc : sp.Names cork t.id) :
    ∃ pre post, sp.allTLogs = pre ++ t :: post ∧
      sp.getTLogsOnBackendSinceLastCork (some cork) none = .ok ((post.filter (·.written_to_backend)).map (·.id)) := by
  rcases mem_append.1 ht with hs | hcur
  · obtain ⟨_, hts, htl⟩ := mem_flatten.1 hs
    obtain ⟨s, hs, rfl⟩ := mem_map.1 hts
    obtain ⟨l₁, l₂, hsplit⟩ := append_of_mem hs
    obtain ⟨a, b, hab⟩ := append_of_mem htl
    have hid : t.id ∈ s.tlogs.map (·.id) := mem_map_of_mem htl
    obtain ⟨-, hid₂, hidc⟩ := hi.snapshot_ids hsplit hid
    -- the cork does not name a TLog of the current ones or of a later snapshot
    have hcur : ∀ x ∈ sp.current, some cork ≠ some x.id := by
      intro x hx he
      obtain rfl := Option.some.inj he
      exact hidc (hi.names_self (mem_append_right _ hx) hc ▸ mem_map_of_mem hx)
    have hlater : ∀ x ∈ l₂.reverse, x.tlogs.WrittenFirst ∧ (some cork = some x.cork_uuid → x.writtenToBackend = false) ∧
        ∀ y ∈ x.tlogs, some cork ≠ some y.id := by
      intro x hx
      rw [mem_reverse] at hx
      have hxs : x ∈ sp.snapshots := by rw [hsplit]; simp [hx]
      have hxids : ∀ y ∈ x.tlogs, y.id ∈ (Snapshots.allTLogs l₂).map (·.id) := fun y hy =>
        mem_map_of_mem (mem_flatten_of_mem (mem_map_of_mem hx) hy)
      refine ⟨writtenFirst_snapshot hw hxs, fun he => ?_, fun y hy he => ?_⟩
      · obtain rfl := Option.some.inj he
        have hlast := TLogs.lastId_mem (hi.cork_names hxs hc)
        obtain ⟨y, hy, hye⟩ := mem_map.1 hlast
        exact absurd (hye ▸ hxids y hy) hid₂
      · obtain rfl := Option.some.inj he
        have hya : y ∈ sp.allTLogs := mem_append_left _ (mem_flatten_of_mem (mem_map_of_mem hxs) hy)
        exact hid₂ (hi.names_self hya hc ▸ hxids y hy)
    refine ⟨Snapshots.allTLogs l₁ ++ a, b ++ Snapshots.allTLogs l₂ ++ sp.current, ?_, ?_⟩
    · rw [allTLogs, hsplit, Snapshots.allTLogs_append, Snapshots.allTLogs_cons, hab]; simp
    · have hrev : sp.snapshots.reverse = l₂.reverse ++ s :: l₁.reverse := by rw [hsplit]; simp
      rw [getTLogs_of_not_current hp (writtenFirst_current hw) hcur, hrev, sinceLastCork_skip _ _ _ _ hlater,
        sinceLastCork, hi.getReversed_snapshot hw hs hab hwr hc, reverse_reverse]
      simp [pure, Except.pure]
  · obtain ⟨a, b, hab⟩ := append_of_mem hcur
    have hct : cork = t.id := by
      rcases hc with ⟨he, -⟩ | ⟨s, hs, -, hlast⟩
      · exact he
      · obtain ⟨l₁, l₂, hsplit⟩ := append_of_mem hs
        exact absurd (mem_map_of_mem hcur) (hi.snapshot_ids hsplit (TLogs.lastId_mem hlast)).2.2
    subst hct
    have hwc := writtenFirst_current hw
    have hnc : (sp.current.map (·.id)).Nodup := hi.ids.sublist (List.Sublist.map _ (sublist_append_right ..))
    rw [hab] at hwc hnc
    refine ⟨sp.snapshots.allTLogs ++ a, b, by rw [allTLogs, hab]; simp, ?_⟩
    unfold getTLogsOnBackendSinceLastCork
    rw [VERIFY_of (by simp [hp]), ok_bind, hab, TLogs.getReversed_of_mem hwc hnc hwr]
    simp [pure, Except.pure]

/-! ## The last cork -/

theorem written_append (l₁ l₂ : Snapshots) (hs : sp.snapshots = l₁ ++ l₂) :
    sp.written = ((Snapshots.allTLogs l₁).filter (·.written_to_backend)).map (·.id) ++
      ((Snapshots.allTLogs l₂).filter (·.written_to_backend)).map (·.id) ++
      (sp.current.filter (·.written_to_backend)).map (·.id) := by
  rw [written, allTLogs, hs, Snapshots.allTLogs_append]
  simp

theorem unwritten_filter {l : TLogs} (h : ∀ t ∈ l, t.written_to_backend = false) :
    l.filter (·.written_to_backend) = [] := by
  rw [filter_eq_nil_iff]
  intro t ht
  rw [h t ht]; simp

theorem unwritten_allTLogs {l : Snapshots} (h : ∀ s ∈ l, ∀ t ∈ s.tlogs, t.written_to_backend = false) :
    ∀ t ∈ Snapshots.allTLogs l, t.written_to_backend = false := by
  intro t ht
  obtain ⟨_, hts, ht⟩ := mem_flatten.1 ht
  obtain ⟨s, hs, rfl⟩ := mem_map.1 hts
  exact h s hs t ht

theorem lastCork_current (h : sp.current.reverse.find? (·.written_to_backend) = some t) :
    sp.lastCork = some t.id ∧ sp.written.getLast? = some t.id ∧ t ∈ sp.current := by
  obtain ⟨ht, a, b, hab, ha⟩ := List.find?_eq_some_iff_append.1 h
  have hcur : sp.current = b.reverse ++ t :: a.reverse := by
    rw [← reverse_reverse sp.current, hab]; simp
  have hunw : a.reverse.filter (·.written_to_backend) = [] :=
    unwritten_filter fun x hx => by simpa using ha x (mem_reverse.1 hx)
  refine ⟨by rw [lastCork, h], ?_, by rw [hcur]; simp⟩
  rw [written, allTLogs, hcur, filter_append, filter_append, filter_cons_of_pos ht, hunw]
  simp

theorem current_unwritten (h : sp.current.reverse.find? (·.written_to_backend) = none) :
    ∀ t ∈ sp.current, t.written_to_backend = false := by
  intro t ht
  have := List.find?_eq_none.1 h t (mem_reverse.2 ht)
  simpa using this

theorem NonePartial.unwritten (hn : sp.NonePartial) (hs : s ∈ sp.snapshots) (h : s.writtenToBackend ≠ true) :
    ∀ t ∈ s.tlogs, t.written_to_backend = false :=
  (hn s hs).resolve_left h

theorem Inv.lastCork_cases (hi : sp.Inv) (hn : sp.NonePartial) : (sp.written = [] ∧ sp.lastCork = none) ∨
      ∃ cork id, sp.lastCork = some cork ∧ sp.written.getLast? = some id ∧ sp.Names cork id := by
  cases hcur : sp.current.reverse.find? (·.written_to_backend) with
  | some t =>
    obtain ⟨h1, h2, h3⟩ := lastCork_current hcur
    exact Or.inr ⟨t.id, t.id, h1, h2, Or.inl ⟨rfl, mem_map_of_mem (mem_append_right _ h3)⟩⟩
  | none =>
    have hunc := unwritten_filter (current_unwritten hcur)
    cases hsnap : sp.snapshots.reverse.find? (·.writtenToBackend) with
    | none =>
      left
      have hall : ∀ s ∈ sp.snapshots, ∀ t ∈ s.tlogs, t.written_to_backend = false := by
        intro s hs
        exact hn.unwritten hs (List.find?_eq_none.1 hsnap s (mem_reverse.2 hs))
      refine ⟨?_, by rw [lastCork, hcur, hsnap]; rfl⟩
      rw [written, allTLogs, filter_append, unwritten_filter (unwritten_allTLogs hall), hunc]
      rfl
    | some s =>
      right
      obtain ⟨hs, a, b, hab, ha⟩ := List.find?_eq_some_iff_append.1 hsnap
      have hsplit : sp.snapshots = b.reverse ++ (s :: a.reverse) := by
        rw [← reverse_reverse sp.snapshots, hab]; simp
      have hmem : s ∈ sp.snapshots := by rw [hsplit]; simp
      have hlater : ∀ x ∈ a.reverse, ∀ t ∈ x.tlogs, t.written_to_backend = false := by
        intro x hx
        refine hn.unwritten (by rw [hsplit]; simp [mem_reverse.1 hx]) ?_
        simpa using ha x (mem_reverse.1 hx)
      obtain ⟨ts, u, htu⟩ : ∃ ts u, s.tlogs = ts ++ [u] := by
        rcases eq_nil_or_concat' s.tlogs with h | h
        · exact absurd h (hi.nonempty s hmem)
        · exact h
      have hwr : ∀ t ∈ s.tlogs, t.written_to_backend = true := all_eq_true.1 hs
      have hu : u.written_to_backend = true := hwr u (by rw [htu]; simp)
      refine ⟨s.cork_uuid, u.id, by rw [lastCork, hcur, hsnap]; rfl, ?_, Or.inr ⟨s, hmem, rfl, ?_⟩⟩
      · rw [written_append _ _ hsplit, hunc, Snapshots.allTLogs_cons, filter_append,
          unwritten_filter (unwritten_allTLogs hlater), htu]
        simp [hu]
      · rw [htu]; simp [lastId]

/-- If a snapshot is written in part, the last written TLog is one of its TLogs, but `lastCork` does
not get to it. -/
theorem Inv.lastCork_partial (hi : sp.Inv) (hw : sp.allTLogs.WrittenFirst) (hn : ¬ sp.NonePartial) :
    ∃ id, sp.written.getLast? = some id ∧ ∀ cork, sp.lastCork = some cork → ¬ sp.Names cork id := by
  unfold NonePartial at hn
  push Not at hn
  obtain ⟨s, hs, hnw, u, hu, huw⟩ := hn
  obtain ⟨l₁, l₂, hsplit⟩ := append_of_mem hs
  obtain ⟨x, hx, hxw⟩ : ∃ x ∈ s.tlogs, x.written_to_backend = false := by
    by_contra hall
    push Not at hall
    exact hnw (all_eq_true.2 fun t ht => by simpa using hall t ht)
  -- nothing is written after the unwritten TLog `x`
  have hall : sp.allTLogs = Snapshots.allTLogs l₁ ++ s.tlogs ++ (Snapshots.allTLogs l₂ ++ sp.current) := by
    rw [allTLogs, hsplit, Snapshots.allTLogs_append, Snapshots.allTLogs_cons]; simp
  have hafter : ∀ t ∈ Snapshots.allTLogs l₂ ++ sp.current, t.written_to_backend = false := by
    intro t ht
    rw [hall, TLogs.WrittenFirst, pairwise_append] at hw
    by_contra hne
    have := hw.2.2 x (mem_append_right _ hx) t ht (by simpa using hne)
    rw [hxw] at this; cases this
  have hcur : sp.current.reverse.find? (·.written_to_backend) = none := by
    rw [List.find?_eq_none]
    intro t ht
    rw [hafter t (mem_append_right _ (mem_reverse.1 ht))]; simp
  obtain ⟨ws, id, hws⟩ : ∃ ws id, (s.tlogs.filter (·.written_to_backend)).map (·.id) = ws ++ [id] := by
    rcases eq_nil_or_concat' ((s.tlogs.filter (·.written_to_backend)).map (·.id)) with h | h
    · have := filter_eq_nil_iff.1 (map_eq_nil_iff.1 h) u hu
      exact absurd (by simpa using huw) this
    · exact h
  have hid : id ∈ s.tlogs.map (·.id) := by
    have : id ∈ (s.tlogs.filter (·.written_to_backend)).map (·.id) := by rw [hws]; simp
    obtain ⟨t, ht, rfl⟩ := mem_map.1 this
    exact mem_map_of_mem (mem_filter.1 ht).1
  refine ⟨id, ?_, fun cork hcork hname => ?_⟩
  · rw [written, hall, filter_append, filter_append, unwritten_filter hafter, append_nil, map_append, hws]
    simp
  · rw [lastCork, hcur] at hcork
    obtain ⟨p, hp, rfl⟩ := Option.map_eq_some_iff.1 hcork
    have hps : p ∈ sp.snapshots := mem_reverse.1 (mem_of_find?_eq_some hp)
    have hpw := List.find?_some hp
    have hlast := hi.cork_names hps hname
    rw [hi.snapshot_unique hs hps hid (lastId_mem hlast)] at hpw
    exact hnw hpw

/-! ## Both together -/

theorem written_nodup (hi : sp.Inv) : sp.written.Nodup := hi.ids.sublist (List.Sublist.map _ filter_sublist)

theorem mem_written (h : id ∈ sp.written) : ∃ t ∈ sp.allTLogs, t.written_to_backend = true ∧ t.id = id := by
  obtain ⟨t, ht, rfl⟩ := mem_map.1 h
  rw [mem_filter] at ht
  exact ⟨t, ht.1, ht.2, rfl⟩

theorem Inv.getTLogs_split (hi : sp.Inv) (hp : sp.parent = none) (hw : sp.allTLogs.WrittenFirst)
    (hid : id ∈ sp.written) (hc : sp.Names cork id) :
    ∃ done l, sp.written = done ++ id :: l ∧ sp.getTLogsOnBackendSinceLastCork (some cork) none = .ok l := by
  obtain ⟨t, ht, hwr, rfl⟩ := mem_written hid
  obtain ⟨pre, post, hall, hl⟩ := hi.getTLogs_names hp hw ht hwr hc
  refine ⟨(pre.filter (·.written_to_backend)).map (·.id), _, ?_, hl⟩
  rw [written, hall]
  simp [hwr]

theorem Inv.getTLogs_lastCork (hi : sp.Inv) (hp : sp.parent = none) (hw : sp.allTLogs.WrittenFirst)
    (hn : sp.NonePartial) : sp.getTLogsOnBackendSinceLastCork sp.lastCork none = .ok [] := by
  rcases hi.lastCork_cases hn with ⟨hnil, hlast⟩ | ⟨cork, id, hlast, hget, hname⟩
  · rw [hlast, getTLogs_none hp hw, hnil]
  · obtain ⟨done, l, hsplit, hl⟩ := hi.getTLogs_split hp hw (mem_of_getLast? hget) hname
    rw [hlast, hl]
    rcases eq_nil_or_concat' l with rfl | ⟨l', x, rfl⟩
    · rfl
    · exfalso
      have hx : x = id := by
        rw [hsplit, ← cons_append, ← append_assoc, List.getLast?_concat] at hget
        exact Option.some.inj hget
      have hnd := written_nodup hi
      rw [hsplit, nodup_append, nodup_cons] at hnd
      exact hnd.2.1.1 (by simp [hx])

theorem Reachable.parent {L : SnapshotPersistor → Op → Prop} {parent : Option ParentConfig}
    (hL : ∀ sp op, L sp op → sp.Legal op) (h : Reachable L parent sp) : sp.parent = parent := by
  refine h.trans_induction True (P := fun sp => sp.parent = parent) hL (fun _ _ _ _ => Or.inr trivial)
    (fun _ _ => rfl) ?_
  intro sp sp' hp ht
  cases ht with
  | mark tid b =>
    rw [← hp]
    unfold setTLogWrittenToBackend
    split <;> rfl
  | _ => exact hp

end SnapshotPersistor

end VolumeDriver
