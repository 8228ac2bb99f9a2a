/-
Work that is queued, running or completed, some of it barriers. Every item has a rank, the place in
which it was handed in. The order that barriers impose is an invariant of the three lists; the moves
of a scheduler are judged by how they change the lists.
-/
import Mathlib.Data.List.Basic
import Mathlib.Data.List.Nodup
import Mathlib.Data.List.Perm.Basic

namespace Lib

open List

variable {α : Type} (barrier : α → Prop) (rank : α → Nat)

/-- Everything behind a queued barrier was handed in later, and so was everything that is still to
be completed when a barrier has been started. Barriers are completed in the order of their ranks. -/
structure Ordered (queue running completed : List α) : Prop where
  nodup : (queue ++ (running ++ completed)).Nodup
  queued : queue.Pairwise fun a b => barrier a → rank a < rank b
  started : ∀ a ∈ running ++ completed, barrier a → ∀ b ∈ queue ++ running, b ≠ a → rank a < rank b
  done : completed.Pairwise fun a b => barrier a → barrier b → rank a < rank b

namespace Ordered

variable {barrier rank} {queue running completed : List α} {t : α}

theorem nil : Ordered barrier rank [] [] [] :=
  ⟨nodup_nil, List.Pairwise.nil, by simp, List.Pairwise.nil⟩

theorem perm_running {running' : List α} (h : Ordered barrier rank queue running completed)
    (hperm : running.Perm running') : Ordered barrier rank queue running' completed := by
  refine ⟨((hperm.append_right completed).append_left queue).nodup h.nodup, h.queued, ?_, h.done⟩
  intro a ha hbar b hb hne
  exact h.started a ((hperm.append_right completed).mem_iff.mpr ha) hbar b
    ((hperm.append_left queue).mem_iff.mpr hb) hne

/-- An item is handed in. -/
theorem add (h : Ordered barrier rank queue running completed)
    (hlast : ∀ a ∈ queue ++ (running ++ completed), rank a < rank t) :
    Ordered barrier rank (queue ++ [t]) running completed := by
  have hnew : t ∉ queue ++ (running ++ completed) := fun ht => Nat.lt_irrefl _ (hlast t ht)
  refine ⟨?_, ?_, ?_, h.done⟩
  · have hperm : (t :: (queue ++ (running ++ completed))).Perm ((queue ++ [t]) ++ (running ++ completed)) := by
      rw [append_assoc]
      exact perm_middle.symm
    exact hperm.nodup (nodup_cons.mpr ⟨hnew, h.nodup⟩)
  · refine pairwise_append.mpr ⟨h.queued, pairwise_singleton .., ?_⟩
    intro a ha b hb _
    rw [mem_singleton.mp hb]
    exact hlast a (mem_append_left _ ha)
  · intro a ha hbar b hb hne
    rcases mem_append.mp hb with hq | hr
    · rcases mem_append.mp hq with hq | hq
      · exact h.started a ha hbar b (mem_append_left _ hq) hne
      · rw [mem_singleton.mp hq]
        exact hlast a (mem_append_right _ ha)
    · exact h.started a ha hbar b (mem_append_right _ hr) hne

/-- An item that is no barrier is moved to the front. -/
theorem promote {pre post : List α} (h : Ordered barrier rank (pre ++ t :: post) running completed) (ht : ¬ barrier t) :
    Ordered barrier rank (t :: (pre ++ post)) running completed := by
  have hperm : (pre ++ t :: post).Perm (t :: (pre ++ post)) := perm_middle
  refine ⟨(hperm.append_right _).nodup h.nodup, ?_, ?_, h.done⟩
  · refine pairwise_cons.mpr ⟨fun _ _ hb => absurd hb ht, h.queued.sublist ?_⟩
    exact List.Sublist.append_left (sublist_cons_self t post) pre
  · intro a ha hbar b hb
    exact h.started a ha hbar b ((hperm.append_right running).mem_iff.mpr hb)

/-- The front item is started, a barrier only when nothing else runs. -/
theorem start {rest running' : List α} (h : Ordered barrier rank (t :: rest) running completed)
    (hperm : running'.Perm (t :: running)) (halone : barrier t → running = []) :
    Ordered barrier rank rest running' completed := by
  obtain ⟨hfront, hrest⟩ := pairwise_cons.mp h.queued
  refine ⟨?_, hrest, ?_, h.done⟩
  · have hall : (t :: rest ++ (running ++ completed)).Perm (rest ++ (running' ++ completed)) := by
      calc t :: rest ++ (running ++ completed)
        _ |>.Perm (rest ++ (t :: running ++ completed)) := perm_middle.symm
        _ |>.Perm (rest ++ (running' ++ completed)) := (hperm.symm.append_right completed).append_left rest
    exact hall.nodup h.nodup
  · intro a ha hbar b hb hne
    simp only [mem_append, hperm.mem_iff, mem_cons] at ha hb
    by_cases hat : a = t
    · -- the barrier itself: nothing else runs, and what is queued was behind it
      subst hat
      rw [halone hbar] at hb
      rcases hb with hb | rfl | hb
      · exact hfront b hb hbar
      · exact absurd rfl hne
      · exact absurd hb not_mem_nil
    · refine h.started a ?_ hbar b ?_ hne
      · simp only [mem_append]
        tauto
      · simp only [mem_append, mem_cons]
        tauto

/-- A running item is completed. -/
theorem complete {running' : List α} (h : Ordered barrier rank queue running completed)
    (hperm : running.Perm (t :: running')) : Ordered barrier rank queue running' (completed ++ [t]) := by
  have hall : (queue ++ (running ++ completed)).Perm (queue ++ (running' ++ (completed ++ [t]))) := by
    refine List.Perm.append_left queue ?_
    calc running ++ completed
      _ |>.Perm (t :: running' ++ completed) := hperm.append_right completed
      _ |>.Perm (running' ++ completed ++ [t]) := perm_append_singleton t (running' ++ completed) |>.symm
      _ |>.Perm (running' ++ (completed ++ [t])) := by rw [append_assoc]
  have hmem : t ∈ running := hperm.mem_iff.mpr (mem_cons_self ..)
  refine ⟨hall.nodup h.nodup, h.queued, ?_, ?_⟩
  · intro a ha hbar b hb hne
    refine h.started a ?_ hbar b ?_ hne
    · simp only [mem_append, hperm.mem_iff, mem_cons] at ha ⊢
      tauto
    · simp only [mem_append, hperm.mem_iff, mem_cons] at hb ⊢
      tauto
  · refine pairwise_append.mpr ⟨h.done, pairwise_singleton .., ?_⟩
    intro a ha b hb hbar _
    rw [mem_singleton.mp hb]
    have hne : t ≠ a := by
      rintro rfl
      exact disjoint_of_nodup_append (nodup_append.mp h.nodup).2.1 hmem ha
    exact h.started a (mem_append_right _ ha) hbar t (mem_append_right _ hmem) hne

/-- A running item goes back to the queue, behind items that are no barriers. -/
theorem requeue {running' pre post : List α} (h : Ordered barrier rank (pre ++ post) running completed)
    (hperm : running.Perm (t :: running')) (hpre : ∀ a ∈ pre, ¬ barrier a) :
    Ordered barrier rank (pre ++ t :: post) running' completed := by
  have hmem : t ∈ running := hperm.mem_iff.mpr (mem_cons_self ..)
  have hall : (pre ++ post ++ (running ++ completed)).Perm (pre ++ t :: post ++ (running' ++ completed)) := by
    calc pre ++ post ++ (running ++ completed)
      _ |>.Perm (pre ++ post ++ (t :: running' ++ completed)) := (hperm.append_right completed).append_left _
      _ |>.Perm (t :: (pre ++ post) ++ (running' ++ completed)) := perm_middle
      _ |>.Perm (pre ++ t :: post ++ (running' ++ completed)) := perm_middle.symm.append_right _
  obtain ⟨hp, hq, hcross⟩ := pairwise_append.mp h.queued
  have hdisjoint : ∀ b ∈ pre ++ post, b ≠ t := by
    rintro b hb rfl
    exact disjoint_of_nodup_append h.nodup hb (mem_append_left _ hmem)
  refine ⟨hall.nodup h.nodup, ?_, ?_, h.done⟩
  · refine pairwise_append.mpr ⟨hp, pairwise_cons.mpr ⟨?_, hq⟩, fun a ha _ _ hbar => absurd hbar (hpre a ha)⟩
    intro b hb hbar
    have hb' : b ∈ pre ++ post := mem_append_right _ hb
    exact h.started t (mem_append_left _ hmem) hbar b (mem_append_left _ hb') (hdisjoint b hb')
  · intro a ha hbar b hb hne
    refine h.started a ?_ hbar b ?_ hne
    · simp only [mem_append, hperm.mem_iff, mem_cons] at ha ⊢
      tauto
    · simp only [mem_append, hperm.mem_iff, mem_cons] at hb ⊢
      tauto

/-- When a barrier is at the front and nothing runs, all that was handed in before it is completed. -/
theorem of_front {rest : List α} (h : Ordered barrier rank (t :: rest) [] completed) (hbar : barrier t) {a : α}
    (ha : a ∈ t :: rest ++ ([] ++ completed)) (hlt : rank a < rank t) : a ∈ completed := by
  obtain ⟨hfront, -⟩ := pairwise_cons.mp h.queued
  rcases mem_append.mp ha with ha | ha
  · rcases mem_cons.mp ha with rfl | ha
    · exact absurd hlt (Nat.lt_irrefl _)
    · exact absurd hlt (Nat.lt_asymm (hfront a ha hbar))
  · exact ha

end Ordered

end Lib
