/-
A snapshot that has been cloned stays. The registry protects a clone from every removal that reads it
later; what is left is that no removal of the snapshot is under way when the creation of the clone makes its
decisive step: when `create_clone` looks into the snapshots file, or when `clone_to_existing_volume`
registers the clone.
-/
import VolumeDriver.Filesystem.LocalNode

namespace VolumeDriver.LocalNode

open Lib ObjectRegistry Function List Creation

/-! ## Younger snapshots -/

section

variable {snap a : SnapshotName} {l l' : List SnapshotName}

theorem mem_younger : ∀ {l : List SnapshotName}, a ∈ younger snap l → [snap, a].Sublist l
  | s :: rest, h => by
    unfold younger at h
    split at h
    · next hs =>
      subst hs
      exact List.Sublist.cons_cons _ (singleton_sublist.2 (mem_filter.1 h).1)
    · exact (mem_younger h).cons s

theorem younger_of_sublist : ∀ {l : List SnapshotName}, l.Nodup → [snap, a].Sublist l → a ∈ younger snap l
  | [], _, h => by cases h
  | s :: rest, hnd, h => by
    obtain ⟨hs, hnd⟩ := nodup_cons.1 hnd
    unfold younger
    cases h with
    | cons _ h =>
      have hne : s ≠ snap := by
        rintro rfl
        exact hs (h.subset (by simp))
      rw [if_neg hne]
      exact younger_of_sublist hnd h
    | cons_cons _ h =>
      have ha := singleton_sublist.1 h
      rw [if_pos rfl]
      refine mem_filter.2 ⟨ha, ?_⟩
      simp only [decide_eq_true_eq]
      rintro rfl
      exact hs ha

theorem younger_mono (hnd : l.Nodup) (hsub : l'.Sublist l) (h : a ∈ younger snap l') : a ∈ younger snap l :=
  younger_of_sublist hnd ((mem_younger h).trans hsub)

theorem younger_append {n : SnapshotName} (hn : a ≠ n) :
    ∀ {l : List SnapshotName}, a ∈ younger snap (l ++ [n]) → a ∈ younger snap l
  | [], h => by
    simp only [nil_append, younger] at h
    split at h <;> cases h
  | s :: rest, h => by
    simp only [cons_append, younger] at h ⊢
    split at h
    · next hs =>
      rw [if_pos hs]
      simpa [hn] using h
    · next hs =>
      rw [if_neg hs]
      exact younger_append hn h

theorem upTo_sublist : ∀ l : List SnapshotName, (upTo snap l).Sublist l
  | [] => .slnil
  | s :: rest => by
    unfold upTo
    split
    · exact singleton_sublist.2 (mem_cons_self ..)
    · exact (upTo_sublist rest).cons_cons s

theorem mem_upTo : ∀ {l : List SnapshotName}, a ∈ l → a ∉ younger snap l → a ∈ upTo snap l
  | s :: rest, ha, hy => by
    unfold younger at hy
    unfold upTo
    split at hy
    · next hs =>
      rw [if_pos hs]
      rcases mem_cons.1 ha with rfl | ha
      · exact mem_singleton_self _
      · have : a = snap := by simpa [ha] using hy
        rw [this, hs]
        exact mem_singleton_self _
    · next hs =>
      rw [if_neg hs]
      rcases mem_cons.1 ha with rfl | ha
      · exact mem_cons_self ..
      · exact mem_cons_of_mem _ (mem_upTo ha hy)

end

/-! ## What protects a snapshot -/

/-- The clone that is registered for this creation. -/
def Creation.registered : Creation → Option Clone
  | .started c => if c.kind = .create_clone then some c else none
  | .found c => if c.kind = .create_clone then some c else none
  | .failing c => some c
  | .returned c => some c
  | _ => none

/-- The clone whose snapshot may not go any more. -/
def Creation.settled : Creation → Option Clone
  | .found c => if c.kind = .create_clone then some c else none
  | .returned c => some c
  | _ => none

theorem Creation.registered_of_settled {x : Creation} {c : Clone} (h : x.settled = some c) : x.registered = some c := by
  cases x with
  | found | returned => exact h
  | _ => cases h

/-- The removal does not touch the snapshot of the clone, or it has read that the clone is registered. -/
def Harmless (snapshots : List SnapshotName) (c : Clone) : Removal → Prop
  | .idle => True
  | .delete_snapshot snap read => snap = c.snap → read.find c.clone_id = some (some c.snap)
  | .rollback_volume snap read => c.snap ∈ younger snap snapshots → read.find c.clone_id = some (some c.snap)
  | .rolling_back snap read doomed =>
    c.snap ∈ younger snap snapshots → read.find c.clone_id = some (some c.snap) ∧ c.snap ∈ doomed

/-- The snapshot is there, and no removal that is under way will take it. -/
def Quiet (s : State) (c : Clone) : Prop := c.snap ∈ s.snapshots ∧ ∀ r, Harmless s.snapshots c (s.removals r)

/-- The registered clones are listed, each under its own id, and the snapshots of the settled ones are safe. -/
structure Inv (s : State) : Prop where
  nodup : s.snapshots.Nodup
  listed : ∀ i c, (s.creations i).registered = some c → s.descendants.find c.clone_id = some (some c.snap)
  apart : ∀ i j c c', (s.creations i).registered = some c → (s.creations j).registered = some c' →
    c.clone_id = c'.clone_id → i = j
  quiet : ∀ i c, (s.creations i).settled = some c → Quiet s c

/-- When `create_clone` finds the snapshot in the snapshots file, and when `clone_to_existing_volume`
registers the clone: the snapshot is still there, and no removal is under way that will take it. -/
def Undisturbed (s : State) : Action → Prop
  | .create i =>
    match s.creations i with
    | .started c => c.kind = .create_clone → c.snap ∈ s.file → Quiet s c
    | .created c => Quiet s c
    | _ => True
  | _ => True

variable {snapshots : List SnapshotName}

theorem Harmless.mono {snapshots' : List SnapshotName} {c : Clone} {x : Removal}
    (h : ∀ snap, c.snap ∈ younger snap snapshots' → c.snap ∈ younger snap snapshots) (hx : Harmless snapshots c x) :
    Harmless snapshots' c x := by
  cases x with
  | idle => trivial
  | delete_snapshot snap read => exact hx
  | rollback_volume snap | rolling_back snap => exact fun hy => hx (h snap hy)

/-! ## What a step keeps -/

namespace Inv

variable {s : State} (h : Inv s)
include h

variable {x : Creation} {c : Clone}

/-- A creation goes on. The parent lists the clones that are registered then, no two under one id. -/
theorem proceed (i : Nat) {ds : Descendants}
    (hown : ∀ c, x.registered = some c → ds.find c.clone_id = some (some c.snap))
    (hlisted : ∀ j c, j ≠ i → (s.creations j).registered = some c → ds.find c.clone_id = some (some c.snap))
    (hapart : ∀ j c c', j ≠ i → (s.creations j).registered = some c → x.registered = some c' → c.clone_id ≠ c'.clone_id)
    (hquiet : ∀ c, x.settled = some c → Quiet s c) : Inv { s.withCreation i x with descendants := ds } := by
  have hnew : (s.withCreation i x).creations i = x := update_self ..
  have hold : ∀ j, j ≠ i → (s.withCreation i x).creations j = s.creations j := fun j hj => update_of_ne hj ..
  refine ⟨h.nodup, fun j c hc => ?_, fun j k c c' hc hc' heq => ?_, fun j c hc => ?_⟩ <;> dsimp only at hc
  · by_cases hj : j = i
    · rw [hj, hnew] at hc
      exact hown c hc
    · rw [hold j hj] at hc
      exact hlisted j c hj hc
  · by_cases hj : j = i <;> by_cases hk : k = i
    · rw [hj, hk]
    · rw [hj, hnew] at hc
      rw [hold k hk] at hc'
      exact absurd heq.symm (hapart k c' c hk hc' hc)
    · rw [hold j hj] at hc
      rw [hk, hnew] at hc'
      exact absurd heq (hapart j c c' hj hc hc')
    · rw [hold j hj] at hc
      rw [hold k hk] at hc'
      exact h.apart j k c c' hc hc' heq
  · by_cases hj : j = i
    · rw [hj, hnew] at hc
      exact hquiet c hc
    · rw [hold j hj] at hc
      exact h.quiet j c hc

/-- A creation goes on with the clone registered as before, or not any more in need of it. -/
theorem withCreation (i : Nat) (hreg : ∀ c, x.registered = some c → (s.creations i).registered = some c)
    (hquiet : ∀ c, x.settled = some c → Quiet s c) : Inv (s.withCreation i x) :=
  h.proceed i (fun c hc => h.listed i c (hreg c hc)) (fun j c _ => h.listed j c)
    (fun j c c' hj hc hc' heq => hj (h.apart j i c c' hc (hreg c' hc') heq)) hquiet

theorem throws (i : Nat) (hreg : c.kind = .create_clone → (s.creations i).registered = some c) :
    Inv (throws s i c) := by
  unfold LocalNode.throws
  split
  · next hkind =>
    refine h.withCreation i ?_ ?_
    · rintro c' ⟨⟩
      exact hreg hkind
    · rintro c' ⟨⟩
  · refine h.withCreation i ?_ ?_ <;> rintro c' ⟨⟩

/-- A clone that the parent does not list yet is registered. -/
theorem register (i : Nat) (hreg : x.registered = some c)
    (hquiet : ∀ c', x.settled = some c' → Quiet s c') : Inv (register s i c x) := by
  unfold LocalNode.register
  split
  · refine h.withCreation i ?_ ?_ <;> rintro c' ⟨⟩
  · next hfree =>
    have hfree : s.descendants.find c.clone_id = none := by simpa using hfree
    -- the other registered clones have other ids, since the parent lists them
    have hne : ∀ j c', (s.creations j).registered = some c' → c.clone_id ≠ c'.clone_id := by
      intro j c' hc' heq
      have hl := h.listed j c' hc'
      rw [← heq, hfree] at hl
      cases hl
    refine h.proceed i ?_ ?_ ?_ hquiet
    · intro c' hc'
      cases hreg.symm.trans hc'
      rw [Assoc.find_insert, if_pos rfl]
    · intro j c' _ hc'
      rw [Assoc.find_insert, if_neg (hne j c' hc')]
      exact h.listed j c' hc'
    · intro j c' c'' _ hc' hc''
      cases hreg.symm.trans hc''
      exact (hne j c' hc').symm

theorem unregister (i : Nat) (hreg : (s.creations i).registered = some c) (hnone : x.registered = none) :
    Inv { s.withCreation i x with descendants := s.descendants.erase c.clone_id } := by
  have hno : ∀ c', x.registered ≠ some c' := by simp [hnone]
  refine h.proceed i (fun c' hc' => absurd hc' (hno c')) ?_ (fun _ _ c' _ _ hc' => absurd hc' (hno c'))
    fun c' hc' => absurd (registered_of_settled hc') (hno c')
  intro j c' hj hc'
  rw [Assoc.find_erase, if_neg]
  · exact h.listed j c' hc'
  · intro heq
    exact hj (h.apart j i c' c hc' hreg heq.symm)

theorem withSnapshots {removals : Nat → Removal} (hnodup : snapshots.Nodup)
    (hquiet : ∀ i c, (s.creations i).settled = some c → c.snap ∈ snapshots ∧ ∀ r, Harmless snapshots c (removals r)) :
    Inv { s with snapshots := snapshots, removals := removals } :=
  ⟨hnodup, h.listed, h.apart, hquiet⟩

theorem withRemoval (r : Nat) {x : Removal}
    (hx : ∀ i c, (s.creations i).settled = some c → Harmless s.snapshots c x) : Inv (s.withRemoval r x) := by
  refine h.withSnapshots h.nodup ?_
  intro i c hc
  refine ⟨(h.quiet i c hc).1, fun r' => ?_⟩
  by_cases hr : r' = r
  · subst hr
    rw [update_self]
    exact hx i c hc
  · rw [update_of_ne hr]
    exact (h.quiet i c hc).2 r'

theorem drop (r : Nat) (hsub : snapshots.Sublist s.snapshots)
    (hstay : ∀ i c, (s.creations i).settled = some c → c.snap ∈ snapshots) :
    Inv { s.withRemoval r .idle with snapshots := snapshots } := by
  refine h.withSnapshots (h.nodup.sublist hsub) ?_
  intro i c hc
  refine ⟨hstay i c hc, fun r' => ?_⟩
  have hmono : ∀ snap, c.snap ∈ younger snap snapshots → c.snap ∈ younger snap s.snapshots :=
    fun snap => younger_mono h.nodup hsub
  by_cases hr : r' = r
  · subst hr
    simp only [State.withRemoval, update_self]
    trivial
  · simp only [State.withRemoval, update_of_ne hr]
    exact ((h.quiet i c hc).2 r').mono hmono

theorem remove (r : Nat) (fails : Bool) : Inv (remove s r fails) := by
  have hidle : Inv (s.withRemoval r .idle) := h.withRemoval r fun _ _ _ => trivial
  unfold LocalNode.remove
  split
  · exact h
  · next snap read hr =>
    split
    · exact hidle
    · next hcheck =>
      simp only [not_or, any_eq_true, decide_eq_true_eq, not_exists, not_and, Prod.forall] at hcheck
      refine h.drop r erase_sublist ?_
      intro i c hc
      obtain ⟨hmem, hharmless⟩ := h.quiet i c hc
      have hr' := hharmless r
      rw [hr] at hr'
      refine (mem_erase_of_ne ?_).2 hmem
      -- a removal of this very snapshot has read that the clone is registered, and is refused
      intro heq
      exact hcheck.1 c.clone_id (some c.snap) (Assoc.mem_of_find (hr' heq.symm)) (by rw [heq])
  · next snap read hr =>
    refine h.withRemoval r ?_
    intro i c hc hy
    have hr' := (h.quiet i c hc).2 r
    rw [hr] at hr'
    exact ⟨hr' hy, hy⟩
  · next snap read doomed hr =>
    split
    · exact hidle
    · next hcheck =>
      simp only [not_or, any_eq_true, not_exists, not_and, Prod.forall] at hcheck
      refine h.drop r (upTo_sublist _) ?_
      intro i c hc
      obtain ⟨hmem, hharmless⟩ := h.quiet i c hc
      have hr' := hharmless r
      rw [hr] at hr'
      refine mem_upTo hmem ?_
      intro hy
      obtain ⟨hread, hdoomed⟩ := hr' hy
      exact hcheck.1 c.clone_id (some c.snap) (Assoc.mem_of_find hread) (by simpa using hdoomed)

theorem create_snapshot {snap : SnapshotName} (hsnap : snap ∉ s.snapshots) :
    Inv { s with snapshots := s.snapshots ++ [snap] } := by
  refine h.withSnapshots ?_ ?_
  · rw [nodup_append]
    refine ⟨h.nodup, by simp, ?_⟩
    rintro a ha b hb rfl
    rw [mem_singleton] at hb
    exact hsnap (hb ▸ ha)
  · intro i c hc
    obtain ⟨hmem, hharmless⟩ := h.quiet i c hc
    have hne : c.snap ≠ snap := by
      rintro rfl
      exact hsnap hmem
    exact ⟨mem_append_left _ hmem, fun r => (hharmless r).mono fun _ => younger_append hne⟩

theorem create (i : Nat) (hquiet : Undisturbed s (.create i)) : Inv (create s i) := by
  simp only [Undisturbed] at hquiet
  unfold LocalNode.create
  split <;> rename_i hi <;> simp only [hi] at hquiet
  · split
    · next hfile =>
      refine h.withCreation i ?_ ?_
      · intro c' hc'
        rw [hi]
        exact hc'
      · intro c' hc'
        simp only [settled] at hc'
        split at hc'
        · next hkind =>
          cases hc'
          exact hquiet hkind hfile
        · cases hc'
    · refine h.throws i fun hkind => ?_
      rw [hi]
      simp [registered, hkind]
  · next c =>
    have hreg : c.kind = .create_clone → (s.creations i).registered = some c := by
      intro hkind
      rw [hi]
      simp [registered, hkind]
    split
    · unfold afterCreate
      split
      · next hkind =>
        have hsettled : (s.creations i).settled = some c := by
          rw [hi]
          simp [settled, hkind]
        refine h.withCreation i ?_ ?_
        · rintro c' ⟨⟩
          exact hreg hkind
        · rintro c' ⟨⟩
          exact h.quiet i c hsettled
      · refine h.withCreation i ?_ ?_ <;> rintro c' ⟨⟩
    · exact h.throws i hreg
  · refine h.register i rfl ?_
    rintro c' ⟨⟩
    exact hquiet
  · exact h.unregister i (by rw [hi]; rfl) rfl
  · exact h

theorem createFails (i : Nat) : Inv (createFails s i) := by
  unfold LocalNode.createFails
  split <;> rename_i hi
  · refine h.throws i fun hkind => ?_
    rw [hi]
    simp [registered, hkind]
  · refine h.throws i fun hkind => ?_
    rw [hi]
    simp [registered, hkind]
  · refine h.withCreation i ?_ ?_ <;> rintro c' ⟨⟩
  · exact h

theorem start (i : Nat) (c : Clone) : Inv (start s i c) := by
  unfold LocalNode.start
  split
  · next hkind => exact h.register i (by simp [registered, hkind]) (by rintro c' ⟨⟩)
  · next hkind =>
    refine h.withCreation i ?_ ?_
    · intro c' hc'
      simp [registered, hkind] at hc'
    · rintro c' ⟨⟩

theorem step (a : Action) (ha : Undisturbed s a) : Inv (step s a) := by
  cases a with
  | start i c =>
    unfold LocalNode.step
    dsimp only
    split
    · exact h.start i c
    · exact h
  | create i => exact h.create i ha
  | createFails i => exact h.createFails i
  | unregister i =>
    show Inv (LocalNode.unregister s i)
    unfold LocalNode.unregister
    split
    · next hi => exact h.unregister i (by rw [hi]; rfl) rfl
    · exact h
  | delete_snapshot r | rollback_volume r =>
    unfold LocalNode.step
    dsimp only
    split
    · refine h.withRemoval r ?_
      intro i c hc _
      exact h.listed i c (registered_of_settled hc)
    · exact h
  | remove r fails => exact h.remove r fails
  | create_snapshot snap =>
    unfold LocalNode.step
    dsimp only
    split
    · exact h
    · next hsnap => exact h.create_snapshot hsnap
  | writeSnapshot => exact { h with }

end Inv

/-! ## Runs -/

theorem Inv.init {s : State} (hnodup : s.snapshots.Nodup) (hcreations : s.creations = fun _ => .idle) : Inv s := by
  constructor
  · exact hnodup
  · intro i c hc
    rw [hcreations] at hc
    cases hc
  · intro i j c c' hc
    rw [hcreations] at hc
    cases hc
  · intro i c hc
    rw [hcreations] at hc
    cases hc

/-- In every interleaving of creations and removals in which the decisive steps of the creations are
undisturbed: the parent lists each clone whose creation has returned and that was not unregistered since,
and the snapshot that it was made from is still there. -/
theorem cloned_snapshot_kept (s : State) (hnodup : s.snapshots.Nodup) (hcreations : s.creations = fun _ => .idle)
    (as : List Action) (has : Each step Undisturbed s as) (i : Nat) (c : Clone)
    (hc : (runs step s as).creations i = .returned c) :
    (runs step s as).descendants.find c.clone_id = some (some c.snap) ∧ c.snap ∈ (runs step s as).snapshots := by
  have h : Inv (runs step s as) := runs_invariant Inv (fun _ a hi ha => hi.step a ha) (Inv.init hnodup hcreations) has
  constructor
  · exact h.listed i c (by rw [hc]; rfl)
  · exact (h.quiet i c (by rw [hc]; rfl)).1

/-- A clone is created and its snapshot is asked to be deleted afterwards, which is refused. -/
theorem deletion_refused :
    let s := runs step { descendants := [], snapshots := ["s"], file := ["s"] }
      [.start 0 ⟨.create_clone, "c", "s"⟩, .create 0, .create 0, .delete_snapshot 0 "s", .remove 0 false]
    s.descendants.find "c" = some (some "s") ∧ "s" ∈ s.snapshots := by
  refine cloned_snapshot_kept _ (by decide) rfl _ ?_ 0 ⟨.create_clone, "c", "s"⟩ (by decide)
  refine ⟨trivial, ?_, trivial, trivial, trivial, trivial⟩
  intro _ _
  exact ⟨by decide, fun r => trivial⟩

/-- The owner has read the registry when the clone is registered, and drops the snapshot after the creation
of the clone has returned. -/
theorem snapshot_dropped :
    let s := runs step { descendants := [], snapshots := ["s"], file := ["s"] }
      [.delete_snapshot 0 "s", .start 0 ⟨.create_clone, "c", "s"⟩, .create 0, .create 0, .remove 0 false]
    s.creations 0 = .returned ⟨.create_clone, "c", "s"⟩ ∧ s.descendants.find "c" = some (some "s") ∧
      "s" ∉ s.snapshots := by
  decide

end VolumeDriver.LocalNode
