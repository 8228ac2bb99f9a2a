/-
Facts about lists that the developments share: related lists, fronts taken by a test, and classes.
-/
import Mathlib.Data.List.Forall2
import Mathlib.Data.List.Perm.Basic
import Mathlib.Data.List.Nodup

namespace Lib

open List

variable {α β : Type}

variable {R : α → β → Prop} {l : List α}

theorem exists_of_forall₂_left {l' : List β} (h : List.Forall₂ R l l') : ∀ {a : α}, a ∈ l → ∃ b ∈ l', R a b := by
  induction h with
  | nil => intro a ha; cases ha
  | cons hr _ ih =>
    intro a ha
    rcases mem_cons.1 ha with rfl | ha
    · exact ⟨_, mem_cons_self .., hr⟩
    · obtain ⟨b, hb, h⟩ := ih ha
      exact ⟨b, mem_cons_of_mem _ hb, h⟩

theorem forall₂_concat_right {b : β} : ∀ {l' : List β} {l : List α}, List.Forall₂ R l (l' ++ [b]) →
    ∃ l₀ a, l = l₀ ++ [a] ∧ List.Forall₂ R l₀ l' ∧ R a b
  | [], _, .cons h .nil => ⟨[], _, rfl, .nil, h⟩
  | _ :: _, _, .cons h hl => by
    obtain ⟨l₀, a, rfl, h1, h2⟩ := forall₂_concat_right hl
    exact ⟨_ :: l₀, a, rfl, .cons h h1, h2⟩

theorem forall₂_getElem? {l' : List β} (h : List.Forall₂ R l l') {i : Nat} {a : α}
    (ha : l[i]? = some a) : ∃ b, l'[i]? = some b ∧ R a b := by
  obtain ⟨hlt, rfl⟩ := List.getElem?_eq_some_iff.1 ha
  have hlt' : i < l'.length := h.length_eq ▸ hlt
  exact ⟨l'[i], List.getElem?_eq_getElem hlt', h.get hlt hlt'⟩

theorem le_getLast {f : α → Nat} (h : l.Pairwise fun a b => f a ≤ f b) {last : α}
    (hlast : l.getLast? = some last) : ∀ a ∈ l, f a ≤ f last := by
  obtain ⟨front, rfl⟩ := List.getLast?_eq_some_iff.mp hlast
  intro a ha
  rcases mem_append.mp ha with ha | ha
  · exact (pairwise_append.mp h).2.2 a ha last (mem_singleton_self last)
  · exact Nat.le_of_eq (congrArg f (mem_singleton.mp ha))

theorem le_last {f : α → Nat} (h : l.Pairwise fun a b => f a ≤ f b) : ∀ a ∈ l, f a ≤ (l.getLast?.map f).getD 0 := by
  intro a ha
  obtain ⟨last, hlast⟩ := Option.ne_none_iff_exists'.mp (mt List.getLast?_eq_none_iff.mp (ne_nil_of_mem ha))
  rw [hlast]
  exact le_getLast h hlast a ha

/-- The element with a key is found when the keys differ. -/
theorem find?_key {K : Type} [DecidableEq K] {key : α → K} (hn : (l.map key).Nodup) {a : α} (ha : a ∈ l) :
    l.find? (fun x => decide (key x = key a)) = some a := by
  cases hf : l.find? fun x => decide (key x = key a) with
  | none => exact absurd (by simp) (List.find?_eq_none.1 hf a ha)
  | some x => rw [inj_on_of_nodup_map hn (mem_of_find?_eq_some hf) ha (by simpa using List.find?_some hf)]

theorem takeWhile_congr {p q : α → Bool} : ∀ {l : List α}, (∀ a ∈ l, p a = q a) → l.takeWhile p = l.takeWhile q
  | [], _ => rfl
  | a :: l, h => by
    rw [takeWhile_cons, takeWhile_cons, h a (mem_cons_self ..), takeWhile_congr fun x hx => h x (mem_cons_of_mem _ hx)]

/-- Classes of a list, each taken once, make up the list. -/
theorem perm_of_classes {C : Type} [DecidableEq C] (c : α → C) : ∀ {ks : List C} {l : List α}, ks.Nodup →
    (∀ a ∈ l, c a ∈ ks) → (ks.flatMap fun k => l.filter fun a => c a = k).Perm l
  | [], l, _, h => by
    cases l with
    | nil => exact List.Perm.refl _
    | cons a l => exact absurd (h a (mem_cons_self ..)) (by simp)
  | k :: ks, l, hn, h => by
    rw [nodup_cons] at hn
    -- the other classes lose nothing when `k` is taken out
    have hrest : (ks.flatMap fun k' => l.filter fun a => c a = k') =
        ks.flatMap fun k' => (l.filter fun a => !decide (c a = k)).filter fun a => c a = k' := by
      refine flatMap_congr fun k' hk' => ?_
      rw [filter_filter]
      refine filter_congr fun a _ => ?_
      by_cases ha : c a = k'
      · have hne : c a ≠ k := fun he => hn.1 (he ▸ ha ▸ hk')
        simp [ha, ha ▸ hne]
      · simp [ha]
    rw [flatMap_cons, hrest]
    refine List.Perm.trans (List.Perm.append_left _ (perm_of_classes c hn.2 ?_)) (filter_append_perm _ l)
    intro a ha
    rw [mem_filter] at ha
    rcases mem_cons.1 (h a ha.1) with hk | hk
    · simp [hk] at ha
    · exact hk

end Lib
