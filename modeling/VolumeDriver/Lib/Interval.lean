/-
Intervals of a list whose ends are named by keys: what comes after the first element with one key,
up to and including the first element with another. Over any element and key types; an end that is
not given does not cut.
-/
import Mathlib.Data.List.Basic

namespace Lib

open List

section

variable {α K : Type} [DecidableEq K] (key : α → K)

/-- The list up to and including the first element with key `k`; all of it if there is none. -/
def through (k : K) : List α → List α
  | [] => []
  | a :: l => if key a = k then [a] else a :: through k l

/-- What comes after the first element with key `k`; nothing if there is none. -/
def past (k : K) : List α → List α
  | [] => []
  | a :: l => if key a = k then l else past k l

/-- Up to an end that may be missing. -/
def throughEnd : Option K → List α → List α
  | none, l => l
  | some k, l => through key k l

/-- After a start that may be missing. -/
def pastStart : Option K → List α → List α
  | none, l => l
  | some k, l => past key k l

@[simp] theorem throughEnd_some (k : K) (l : List α) : throughEnd key (some k) l = through key k l := rfl

@[simp] theorem pastStart_some (k : K) (l : List α) : pastStart key (some k) l = past key k l := rfl

variable {key} {k m : K} {l l₁ l₂ : List α}

theorem through_append_of_mem (h : k ∈ l₁.map key) : through key k (l₁ ++ l₂) = through key k l₁ := by
  induction l₁ with
  | nil => simp at h
  | cons a l ih =>
    rw [cons_append, through, through]
    split
    · rfl
    · rename_i hne
      rw [map_cons, mem_cons] at h
      rw [ih (h.resolve_left (Ne.symm hne))]

theorem through_append_of_not_mem (h : k ∉ l₁.map key) : through key k (l₁ ++ l₂) = l₁ ++ through key k l₂ := by
  induction l₁ with
  | nil => rfl
  | cons a l ih =>
    rw [map_cons, mem_cons, not_or] at h
    rw [cons_append, through, if_neg (Ne.symm h.1), ih h.2, cons_append]

theorem past_append_of_mem (h : k ∈ l₁.map key) : past key k (l₁ ++ l₂) = past key k l₁ ++ l₂ := by
  induction l₁ with
  | nil => simp at h
  | cons a l ih =>
    rw [cons_append, past, past]
    split
    · rfl
    · rename_i hne
      rw [map_cons, mem_cons] at h
      rw [ih (h.resolve_left (Ne.symm hne))]

theorem past_append_of_not_mem (h : k ∉ l₁.map key) : past key k (l₁ ++ l₂) = past key k l₂ := by
  induction l₁ with
  | nil => rfl
  | cons a l ih =>
    rw [map_cons, mem_cons, not_or] at h
    rw [cons_append, past, if_neg (Ne.symm h.1), ih h.2]

theorem through_of_not_mem (h : k ∉ l.map key) : through key k l = l := by
  have happ : through key k (l ++ []) = _ := through_append_of_not_mem h
  simpa [through] using happ

theorem past_of_not_mem (h : k ∉ l.map key) : past key k l = [] := by
  have happ : past key k (l ++ []) = _ := past_append_of_not_mem h
  simpa [past] using happ

theorem through_subset : through key k l ⊆ l := by
  induction l with
  | nil => exact List.Subset.refl _
  | cons a l ih =>
    rw [through]
    split
    · exact cons_subset_cons a (nil_subset l)
    · exact cons_subset_cons a ih

theorem throughEnd_subset (e : Option K) : throughEnd key e l ⊆ l := by
  cases e with
  | none => exact List.Subset.refl _
  | some k => exact through_subset

theorem through_append_past (h : k ∈ l.map key) : through key k l ++ past key k l = l := by
  induction l with
  | nil => simp at h
  | cons a l ih =>
    rw [through, past]
    split
    · rfl
    · rename_i hne
      rw [map_cons, mem_cons] at h
      rw [cons_append, ih (h.resolve_left (Ne.symm hne))]

variable {e : Option K}

/-- An end inside the interval cuts it as it cuts the list. -/
theorem through_throughEnd (h : m ∈ (throughEnd key e l).map key) :
    through key m (throughEnd key e l) = through key m l := by
  cases e with
  | none => rfl
  | some k =>
    rw [throughEnd_some] at h ⊢
    induction l with
    | nil => rfl
    | cons a l ih =>
      by_cases hk : key a = k
      · rw [through, if_pos hk] at h ⊢
        have hm : key a = m := by simpa [eq_comm] using h
        rw [through, if_pos hm, through, if_pos hm]
      · rw [through, if_neg hk] at h ⊢
        rw [through, through]
        split
        · rfl
        · rename_i hne
          rw [map_cons, mem_cons] at h
          rw [ih (h.resolve_left (Ne.symm hne))]

/-- Two intervals that meet make up one. -/
theorem intervals_append {s : Option K} (hs : ∀ c ∈ s, c ∈ (through key m l).map key)
    (hm : m ∈ (throughEnd key e l).map key) :
    pastStart key s (through key m l) ++ past key m (throughEnd key e l) = pastStart key s (throughEnd key e l) := by
  have hsplit : through key m l ++ past key m (throughEnd key e l) = throughEnd key e l := by
    rw [← through_throughEnd hm, through_append_past hm]
  cases s with
  | none => exact hsplit
  | some c =>
    rw [pastStart_some, pastStart_some, ← past_append_of_mem (hs c rfl), hsplit]

/-! ## Ends that may be missing -/

theorem throughEnd_append_of_mem (h : ∃ c ∈ e, c ∈ l₁.map key) : throughEnd key e (l₁ ++ l₂) = throughEnd key e l₁ := by
  obtain ⟨c, rfl, hc⟩ := h
  exact through_append_of_mem hc

theorem throughEnd_append_of_not_mem (h : ∀ c ∈ e, c ∉ l₁.map key) :
    throughEnd key e (l₁ ++ l₂) = l₁ ++ throughEnd key e l₂ := by
  cases e with
  | none => rfl
  | some c => exact through_append_of_not_mem (h c rfl)

theorem throughEnd_of_not_mem (h : ∀ c ∈ e, c ∉ l.map key) : throughEnd key e l = l := by
  cases e with
  | none => rfl
  | some c => exact through_of_not_mem (h c rfl)

theorem throughEnd_map {β : Type} (f : β → α) (e : Option K) (l : List β) :
    throughEnd key e (l.map f) = (throughEnd (key ∘ f) e l).map f := by
  cases e with
  | none => rfl
  | some k =>
    rw [throughEnd_some, throughEnd_some]
    induction l with
    | nil => rfl
    | cons b l ih =>
      rw [map_cons, through, through, ih, Function.comp_apply]
      split <;> rfl

theorem pastStart_map {β : Type} (f : β → α) (s : Option K) (l : List β) :
    pastStart key s (l.map f) = (pastStart (key ∘ f) s l).map f := by
  cases s with
  | none => rfl
  | some k =>
    rw [pastStart_some, pastStart_some]
    induction l with
    | nil => rfl
    | cons b l ih =>
      rw [map_cons, past, past, ih, Function.comp_apply]
      split <;> rfl

/-! ## Lists of which elements are left out -/

variable {p : α → Bool}

theorem throughEnd_filter (h : ∀ a ∈ l, e = some (key a) → p a = true) :
    throughEnd key e (l.filter p) = (throughEnd key e l).filter p := by
  cases e with
  | none => rfl
  | some k =>
    rw [throughEnd_some, throughEnd_some]
    induction l with
    | nil => rfl
    | cons a l ih =>
      have ih := ih fun b hb => h b (mem_cons_of_mem a hb)
      by_cases hk : key a = k
      · have hp := h a (mem_cons_self ..) (by rw [hk])
        rw [filter_cons_of_pos hp, through, if_pos hk, through, if_pos hk, filter_cons_of_pos hp]
        rfl
      · by_cases hp : p a = true
        · rw [filter_cons_of_pos hp, through, if_neg hk, through, if_neg hk, filter_cons_of_pos hp, ih]
        · rw [filter_cons_of_neg hp, through, if_neg hk, filter_cons_of_neg hp, ih]

theorem pastStart_filter {s : Option K} (h : ∀ a ∈ l, s = some (key a) → p a = true) :
    pastStart key s (l.filter p) = (pastStart key s l).filter p := by
  cases s with
  | none => rfl
  | some k =>
    rw [pastStart_some, pastStart_some]
    induction l with
    | nil => rfl
    | cons a l ih =>
      have ih := ih fun b hb => h b (mem_cons_of_mem a hb)
      by_cases hk : key a = k
      · have hp := h a (mem_cons_self ..) (by rw [hk])
        rw [filter_cons_of_pos hp, past, if_pos hk, past, if_pos hk]
      · by_cases hp : p a = true
        · rw [filter_cons_of_pos hp, past, if_neg hk, past, if_neg hk, ih]
        · rw [filter_cons_of_neg hp, past, if_neg hk, ih]

end

end Lib
