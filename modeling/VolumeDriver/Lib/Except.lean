/-
Programs that throw, as `Except` computations: a successful run taken apart one statement at a
time, assertions, and loops (`List.foldlM`) with an invariant over the part already processed.
-/
import Mathlib.Data.List.Basic

namespace Lib

variable {ε α β : Type}

/-! ## One statement at a time -/

variable {b : β} {e : ε} {p : Prop}

theorem bind_ok {x : Except ε α} {f : α → Except ε β} (h : x >>= f = .ok b) : ∃ a, x = .ok a ∧ f a = .ok b := by
  cases x with
  | error e => cases h
  | ok a => exact ⟨a, rfl, h⟩

theorem pure_ok {a b : α} (h : (pure a : Except ε α) = .ok b) : a = b := by
  cases h; rfl

theorem toOption_map_ok {x : Except ε α} {f : α → β} (h : x.toOption.map f = some b) : ∃ a, x = .ok a ∧ f a = b := by
  cases x with
  | error e => cases h
  | ok a => exact ⟨a, rfl, Option.some.inj h⟩

@[simp] theorem ok_bind (a : α) (f : α → Except ε β) : (Except.ok a >>= f) = f a := rfl

@[simp] theorem error_bind (e : ε) (f : α → Except ε β) : (Except.error e >>= f) = .error e := rfl

/-- An assertion: the statement throws `e` unless `p` holds. -/
def verify (p : Prop) [Decidable p] (e : ε) : Except ε Unit :=
  if p then .ok () else .error e

theorem verify_ok [Decidable p] {u : Unit} (h : verify p e = .ok u) : p := by
  unfold verify at h
  split at h
  · assumption
  · cases h

@[simp] theorem verify_of [Decidable p] (h : p) : verify p e = .ok () :=
  if_pos h

theorem verify_bind_ok [Decidable p] {f : Unit → Except ε β} (h : verify p e >>= f = .ok b) : p ∧ f () = .ok b := by
  obtain ⟨u, hu, h⟩ := bind_ok h
  exact ⟨verify_ok hu, h⟩

/-! ## Loops -/

/-- A loop invariant indexed by the elements already processed. -/
theorem foldlM_pre {f : β → α → Except ε β} (P : List α → β → Prop)
    (hf : ∀ done b a b', P done b → f b a = .ok b' → P (done ++ [a]) b') :
    ∀ (l done : List α) (b b' : β), P done b → l.foldlM f b = .ok b' → P (done ++ l) b'
  | [], done, b, b', hb, h => by
    cases pure_ok h; simpa using hb
  | a :: l, done, b, b', hb, h => by
    obtain ⟨b₁, h₁, h₂⟩ := bind_ok h
    simpa using foldlM_pre P hf l (done ++ [a]) b₁ b' (hf done b a b₁ hb h₁) h₂

theorem foldlM_append_ok {f : β → α → Except ε β} {l₁ l₂ : List α} {b' : β} (h : (l₁ ++ l₂).foldlM f b = .ok b') :
    ∃ b₁, l₁.foldlM f b = .ok b₁ ∧ l₂.foldlM f b₁ = .ok b' := by
  rw [List.foldlM_append] at h
  exact bind_ok h

theorem mapM_ok {f : α → Except ε β} (g : α → β) (hf : ∀ a b, f a = .ok b → b = g a) :
    ∀ {l : List α} {l' : List β}, l.mapM f = .ok l' → l' = l.map g
  | [], l', h => by
    exact (pure_ok h).symm
  | a :: l, l', h => by
    rw [List.mapM_cons] at h
    obtain ⟨b, hb, h⟩ := bind_ok h
    obtain ⟨bs, hbs, h⟩ := bind_ok h
    rw [← pure_ok h, hf a b hb, mapM_ok g hf hbs]
    rfl

end Lib
