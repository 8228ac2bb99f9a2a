/-
Systems that take one action after another: a step function on states, the run of a list of
actions, and statements about every step of a run. A property of runs is reduced here to one
obligation about a single step.
-/
import Mathlib.Data.List.Basic

namespace Lib

variable {S A : Type} {step : S → A → S}

/-- The state after a list of actions. -/
def runs (step : S → A → S) (s : S) (as : List A) : S := as.foldl step s

@[simp] theorem runs_nil (s : S) : runs step s [] = s := rfl

@[simp] theorem runs_cons (s : S) (a : A) (as : List A) : runs step s (a :: as) = runs step (step s a) as := rfl

theorem runs_append (s : S) (as bs : List A) : runs step s (as ++ bs) = runs step (runs step s as) bs :=
  List.foldl_append

/-- Every action of the run meets `P`, in the state in which it is taken. -/
def Each (step : S → A → S) (P : S → A → Prop) : S → List A → Prop
  | _, [] => True
  | s, a :: as => P s a ∧ Each step P (step s a) as

/-- A condition that can be decided can be decided along a run. -/
instance Each.decidable {P : S → A → Prop} [∀ s a, Decidable (P s a)] :
    ∀ (s : S) (as : List A), Decidable (Each step P s as)
  | _, [] => isTrue trivial
  | s, a :: as => @instDecidableAnd _ _ _ (Each.decidable (step s a) as)

@[simp] theorem each_nil (P : S → A → Prop) (s : S) : Each step P s [] := trivial

@[simp] theorem each_cons (P : S → A → Prop) (s : S) (a : A) (as : List A) :
    Each step P s (a :: as) ↔ P s a ∧ Each step P (step s a) as := Iff.rfl

theorem each_append (P : S → A → Prop) : ∀ (s : S) (as bs : List A),
    Each step P s (as ++ bs) ↔ Each step P s as ∧ Each step P (runs step s as) bs
  | s, [], bs => by simp
  | s, a :: as, bs => by
    rw [List.cons_append, each_cons, each_append P (step s a) as bs, each_cons, runs_cons, and_assoc]

/-- An invariant that each action keeps when it meets `P` holds after every such run. -/
theorem runs_invariant {P : S → A → Prop} (Inv : S → Prop) (hstep : ∀ s a, Inv s → P s a → Inv (step s a)) :
    ∀ {as : List A} {s : S}, Inv s → Each step P s as → Inv (runs step s as)
  | [], _, hs, _ => hs
  | a :: _, s, hs, h => by
    rw [runs_cons]
    exact runs_invariant Inv hstep (hstep s a hs h.1) h.2

/-- Actions that each keep the invariant and meet `P` under it. -/
theorem each_of_invariant {P : S → A → Prop} {Q : A → Prop} (Inv : S → Prop)
    (hstep : ∀ s a, Inv s → Q a → P s a ∧ Inv (step s a)) :
    ∀ {as : List A} {s : S}, Inv s → (∀ a ∈ as, Q a) → Each step P s as ∧ Inv (runs step s as)
  | [], _, hs, _ => ⟨trivial, hs⟩
  | a :: as, s, hs, h => by
    obtain ⟨hp, hnext⟩ := hstep s a hs (h a (List.mem_cons_self ..))
    obtain ⟨heach, hrun⟩ := each_of_invariant Inv hstep hnext fun x hx => h x (List.mem_cons_of_mem a hx)
    exact ⟨⟨hp, heach⟩, hrun⟩

/-- Under an invariant that the actions keep when they meet `Q`, what they meet implies `P`. -/
theorem each_imp {P Q : S → A → Prop} (Inv : S → Prop) (hstep : ∀ s a, Inv s → Q s a → P s a ∧ Inv (step s a)) :
    ∀ {as : List A} {s : S}, Inv s → Each step Q s as → Each step P s as
  | [], _, _, _ => trivial
  | a :: _, s, hs, h => by
    obtain ⟨hp, hnext⟩ := hstep s a hs h.1
    exact ⟨hp, each_imp Inv hstep hnext h.2⟩

/-- Two conditions that agree on the states of an invariant hold along the same runs, when the
actions that meet the second keep the invariant. -/
theorem each_iff {P Q : S → A → Prop} (Inv : S → Prop) (hiff : ∀ s a, Inv s → (P s a ↔ Q s a))
    (hstep : ∀ s a, Inv s → Q s a → Inv (step s a)) :
    ∀ {as : List A} {s : S}, Inv s → (Each step P s as ↔ Each step Q s as)
  | [], _, _ => Iff.rfl
  | a :: as, s, hs => by
    rw [each_cons, each_cons, hiff s a hs]
    exact and_congr_right fun hq => each_iff Inv hiff hstep (hstep s a hs hq)

end Lib
