/-
Relations whose elements are all reached from a root and none of which is below itself, and what
becomes of them when a link is added, an element without links is taken out, or an element is moved
below another one.
-/
import Mathlib.Logic.Relation

namespace Lib

open Relation

variable {α : Type*} {r r' : α → α → Prop}

/-- No element is below itself. -/
def Acyclic (r : α → α → Prop) : Prop := ∀ x, ¬ TransGen r x x

theorem Acyclic.mono (h : Acyclic r) (hsub : ∀ x y, r' x y → r x y) : Acyclic r' :=
  fun x hx => h x (TransGen.mono hsub x x hx)

theorem Acyclic.not_self (h : Acyclic r) {x y : α} (hxy : r x y) : ¬ ReflTransGen r y x :=
  fun hyx => h x (TransGen.head' hxy hyx)

/-- Links that only lead upwards in a rank. -/
theorem acyclic_of_rank (rank : α → Nat) (hrank : ∀ x y, r x y → rank x < rank y) : Acyclic r := by
  have hlt : ∀ {x y}, TransGen r x y → rank x < rank y := by
    intro x y h
    induction h with
    | single hxy => exact hrank _ _ hxy
    | tail _ hyz ih => exact Nat.lt_trans ih (hrank _ _ hyz)
  exact fun x hx => Nat.lt_irrefl _ (hlt hx)

/-! ## A link is added -/

section

variable {q m : α} (hsub : ∀ x y, r' x y → r x y ∨ (x = q ∧ y = m))
include hsub

theorem transGen_link {x y : α} (h : TransGen r' x y) : TransGen r x y ∨ (ReflTransGen r x q ∧ ReflTransGen r m y) := by
  induction h with
  | single hxy =>
    rcases hsub _ _ hxy with hr | ⟨rfl, rfl⟩
    · exact .inl (.single hr)
    · exact .inr ⟨.refl, .refl⟩
  | @tail y z _ hyz ih =>
    rcases hsub _ _ hyz with hr | ⟨rfl, rfl⟩
    · rcases ih with ih | ⟨hxq, hmy⟩
      · exact .inl (ih.tail hr)
      · exact .inr ⟨hxq, hmy.tail hr⟩
    · rcases ih with ih | ⟨hxq, _⟩
      · exact .inr ⟨ih.to_reflTransGen, .refl⟩
      · exact .inr ⟨hxq, .refl⟩

theorem Acyclic.link (h : Acyclic r) (hq : ¬ ReflTransGen r m q) : Acyclic r' := by
  intro x hx
  rcases transGen_link hsub hx with hx | ⟨hxq, hmx⟩
  · exact h x hx
  · exact hq (hmx.trans hxq)

end

/-! ## What is still reached -/

/-- When what is linked to an element that is not `bad` stays within reach unless it is bad itself, and
everything below a bad element is bad, the other elements are still reached. -/
theorem reach_of_kept {bad : α → Prop} (hbad : ∀ x y, bad x → r x y → bad y)
    {root y : α} (hkept : ∀ x y, r x y → ¬ bad x → ¬ bad y → ReflTransGen r' root x → ReflTransGen r' root y)
    (h : ReflTransGen r root y) : bad y ∨ ReflTransGen r' root y := by
  induction h with
  | refl => exact .inr .refl
  | @tail x y _ hxy ih =>
    rcases ih with hx | hx
    · exact .inl (hbad x y hx hxy)
    · by_cases hy : bad y
      · exact .inl hy
      · by_cases hbx : bad x
        · exact .inl (hbad x y hbx hxy)
        · exact .inr (hkept x y hxy hbx hy hx)

/-- The elements `gone`, which have no links, are taken out. -/
theorem reach_of_removed {gone : α → Prop} (hgone : ∀ x y, gone x → ¬ r x y)
    (hkept : ∀ x y, r x y → ¬ gone y → r' x y) {root y : α} (h : ReflTransGen r root y) :
    gone y ∨ ReflTransGen r' root y :=
  reach_of_kept (fun x y hx hxy => absurd hxy (hgone x y hx)) (fun x y hxy _ hy hx => hx.tail (hkept x y hxy hy)) h

/-- The elements `gone` are taken out and `m` is moved below `q`, which is not below `m`. -/
theorem reach_of_moved {gone : α → Prop} {root q m : α} (hgone : ∀ x y, gone x → ¬ r x y)
    (hkept : ∀ x y, r x y → y ≠ m → ¬ gone y → r' x y) (hlink : r' q m) (hroot : ReflTransGen r root q)
    (hq : ¬ ReflTransGen r m q) (hqg : ¬ gone q) {y : α} (h : ReflTransGen r root y) :
    gone y ∨ ReflTransGen r' root y := by
  -- a path to `q` does not meet `m`, so all of its links stay
  have hreach : ReflTransGen r' root q := by
    have hbad : ∀ x y, (ReflTransGen r m x ∨ gone x) → r x y → ReflTransGen r m y ∨ gone y := by
      rintro x y (hx | hx) hxy
      · exact .inl (hx.tail hxy)
      · exact absurd hxy (hgone x y hx)
    rcases reach_of_kept hbad (fun x y hxy _ hy hx => hx.tail (hkept x y hxy (fun he => hy (.inl (he ▸ .refl)))
      fun hg => hy (.inr hg))) hroot with (hm | hg) | hr
    · exact absurd hm hq
    · exact absurd hg hqg
    · exact hr
  refine reach_of_kept (fun x y hx hxy => absurd hxy (hgone x y hx)) (fun x y hxy _ hy hx => ?_) h
  by_cases hm : y = m
  · exact hm ▸ hreach.tail hlink
  · exact hx.tail (hkept x y hxy hm hy)

/-- What is not in a set that the links stay in is not reached from it. -/
theorem not_reach_of_closed (C : α → Prop) (hclosed : ∀ x y, C x → r x y → C y) {x y : α} (hx : C x) (hy : ¬ C y) :
    ¬ ReflTransGen r x y := by
  intro h
  refine hy ?_
  clear hy
  induction h with
  | refl => exact hx
  | tail _ hxy ih => exact hclosed _ _ ih hxy

end Lib
