/-
Pre- and postconditions for programs that change a state and may throw. A triple says what holds
of the result and the state when the program returns, and what holds of the state it leaves
behind when it throws.
-/
import Mathlib.Data.List.Basic
import Mathlib.Order.Defs.Unbundled

namespace Lib

variable {ε σ α β : Type}

/-- From a state that meets `P` the program returns with `Q` or throws with `E`. -/
def Triple (P : σ → Prop) (m : EStateM ε σ α) (Q : α → σ → Prop) (E : σ → Prop) : Prop :=
  ∀ s, P s → match m s with
    | .ok a s' => Q a s'
    | .error _ s' => E s'

/-- The state a program leaves behind, whether it returns or throws. -/
def after (m : EStateM ε σ α) (s : σ) : σ :=
  match m s with
  | .ok _ s' => s'
  | .error _ s' => s'

/-- The program returns from this state. -/
def returns (m : EStateM ε σ α) (s : σ) : Bool :=
  match m s with
  | .ok _ _ => true
  | .error _ _ => false

/-- What the program returns from this state. -/
def result (m : EStateM ε σ α) (s : σ) : Option α :=
  match m s with
  | .ok a _ => some a
  | .error _ _ => none

variable {a : α} {m : EStateM ε σ α} {s s' : σ} {e : ε} {f : α → EStateM ε σ β}

theorem result_ok (h : m s = .ok a s') : result m s = some a := by
  unfold result
  rw [h]

theorem returns_ok (h : m s = .ok a s') : returns m s = true := by
  unfold returns
  rw [h]

theorem returns_error (h : m s = .error e s') : returns m s = false := by
  unfold returns
  rw [h]

theorem run_bind (h : m s = .ok a s') : (m >>= f) s = f a s' := by
  show EStateM.bind m f s = _
  unfold EStateM.bind
  rw [h]

theorem run_get_bind {f : σ → EStateM ε σ β} : ((get : EStateM ε σ σ) >>= f) s = f s s := rfl

theorem run_bind_error (h : m s = .error e s') : (m >>= f) s = .error e s' := by
  show EStateM.bind m f s = _
  unfold EStateM.bind
  rw [h]

theorem run_tryCatch {k : ε → EStateM ε σ α} (h : m s = .ok a s') : tryCatch m k s = .ok a s' := by
  show EStateM.tryCatch m k s = _
  unfold EStateM.tryCatch
  rw [h]

/-- The handler sees the state in which the program threw. -/
theorem run_tryCatch_error {k : ε → EStateM ε σ α} (h : m s = .error e s') : tryCatch m k s = k e s' := by
  show EStateM.tryCatch m k s = _
  unfold EStateM.tryCatch
  rw [h]
  rfl

theorem after_bind (h : m s = .ok a s') : after (m >>= f) s = after (f a) s' := by
  unfold after
  rw [run_bind h]

theorem after_ok (h : m s = .ok a s') : after m s = s' := by
  unfold after
  rw [h]

theorem after_error (h : m s = .error e s') : after m s = s' := by
  unfold after
  rw [h]

theorem after_bind_error (h : m s = .error e s') : after (m >>= f) s = s' :=
  after_error (run_bind_error h)

theorem after_congr {m' : EStateM ε σ α} (h : m s = m' s') : after m s = after m' s' := by
  unfold after
  rw [h]

theorem after_bind_congr {m' : EStateM ε σ α} (h : m s = m' s') : after (m >>= f) s = after (m' >>= f) s' := by
  show (match EStateM.bind m f s with | .ok _ s' => s' | .error _ s' => s') =
    match EStateM.bind m' f s' with | .ok _ s' => s' | .error _ s' => s'
  unfold EStateM.bind
  rw [h]

namespace Triple

variable {P P' : σ → Prop} {Q Q' : α → σ → Prop} {R : β → σ → Prop} {E : σ → Prop}

variable {m : EStateM ε σ α}

/-- What holds of every way to end holds of the state left behind. -/
theorem after {I : σ → Prop} (h : Triple P m (fun _ => I) I) {s : σ} (hs : P s) : I (after m s) := by
  have := h s hs
  unfold Lib.after
  cases hm : m s with
  | ok | error => rw [hm] at this; exact this

theorem bind {f : α → EStateM ε σ β} (hm : Triple P m Q E) (hf : ∀ a, Triple (Q a) (f a) R E) :
    Triple P (m >>= f) R E := by
  intro s hs
  have h := hm s hs
  show match EStateM.bind m f s with | .ok a s' => R a s' | .error _ s' => E s'
  unfold EStateM.bind
  cases hr : m s with
  | ok a s' => rw [hr] at h; exact hf a s' h
  | error e s' => rw [hr] at h; exact h

theorem modify_throw {g : σ → σ} {e : ε} (h : ∀ s, P s → E (g s)) :
    Triple P (do modify g; throw e : EStateM ε σ α) Q E :=
  fun s hs => h s hs

theorem pure {a : α} (h : ∀ s, P s → Q a s) : Triple P (pure a : EStateM ε σ α) Q E :=
  fun s hs => h s hs

theorem throw {e : ε} (h : ∀ s, P s → E s) : Triple P (throw e : EStateM ε σ α) Q E :=
  fun s hs => h s hs

theorem modify {g : σ → σ} {Q : PUnit → σ → Prop} (h : ∀ s, P s → Q ⟨⟩ (g s)) :
    Triple P (modify g : EStateM ε σ PUnit) Q E :=
  fun s hs => h s hs

theorem set {t : σ} {Q : PUnit → σ → Prop} (h : ∀ s, P s → Q ⟨⟩ t) : Triple P (set t : EStateM ε σ PUnit) Q E :=
  fun s hs => h s hs

/-- The handler starts in the state in which the program threw. -/
theorem tryCatch {k : ε → EStateM ε σ α} {F : σ → Prop} (hm : Triple P m Q F) (hk : ∀ e, Triple F (k e) Q E) :
    Triple P (tryCatch m k) Q E := by
  intro s hs
  have h := hm s hs
  cases hr : m s with
  | ok a s' =>
    rw [hr] at h
    rw [run_tryCatch hr]
    exact h
  | error e s' =>
    rw [hr] at h
    rw [run_tryCatch_error hr]
    exact hk e s' h

/-- A program that first looks at the state. -/
theorem get_bind {f : σ → EStateM ε σ α} (h : ∀ s, P s → Triple (· = s) (f s) Q E) : Triple P (get >>= f) Q E :=
  fun s hs => h s hs s rfl

theorem ite {p : Prop} [Decidable p] {m₁ m₂ : EStateM ε σ α} (h₁ : p → Triple P m₁ Q E) (h₂ : ¬ p → Triple P m₂ Q E) :
    Triple P (if p then m₁ else m₂) Q E := by
  split
  · exact h₁ (by assumption)
  · exact h₂ (by assumption)

theorem conseq {E' : σ → Prop} (h : Triple P m Q E) (hp : ∀ s, P' s → P s) (hq : ∀ a s, Q a s → Q' a s)
    (he : ∀ s, E s → E' s) : Triple P' m Q' E' := by
  intro s hs
  have := h s (hp s hs)
  cases hm : m s with
  | ok a s' => rw [hm] at this; exact hq a s' this
  | error e s' => rw [hm] at this; exact he s' this

theorem weaken (h : Triple P m Q E) (hp : ∀ s, P' s → P s) (hq : ∀ a s, Q a s → Q' a s) : Triple P' m Q' E :=
  h.conseq hp hq fun _ hs => hs

theorem weakenError {E' : σ → Prop} (h : Triple P m Q E) (he : ∀ s, E s → E' s) : Triple P m Q E' :=
  h.conseq (fun _ hs => hs) (fun _ _ hs => hs) he

theorem of_eq {s : σ} (h : Triple P m Q E) (hs : P s) : Triple (· = s) m Q E := by
  rintro _ rfl
  exact h _ hs

theorem pure_of_eq {s : σ} {a : α} (h : Q a s) : Triple (· = s) (Pure.pure a : EStateM ε σ α) Q E :=
  (pure fun _ hs => hs).of_eq h

theorem throw_of_eq {s : σ} {e : ε} (h : E s) : Triple (· = s) (MonadExcept.throw e : EStateM ε σ α) Q E :=
  (throw fun _ hs => hs).of_eq h

theorem and {E' : σ → Prop} (h : Triple P m Q E) (h' : Triple P' m Q' E') :
    Triple (fun s => P s ∧ P' s) m (fun a s => Q a s ∧ Q' a s) (fun s => E s ∧ E' s) := by
  intro s hs
  have h1 := h s hs.1
  have h2 := h' s hs.2
  cases hm : m s with
  | ok | error =>
    rw [hm] at h1 h2
    exact ⟨h1, h2⟩

/-- A program that never throws returns. -/
theorem ok (h : Triple P m Q fun _ => False) {s : σ} (hs : P s) : ∃ a s', m s = .ok a s' ∧ Q a s' := by
  have := h s hs
  cases hm : m s with
  | ok a s' => rw [hm] at this; exact ⟨a, s', rfl, this⟩
  | error e s' => rw [hm] at this; exact this.elim

/-- A part of the precondition that does not speak of the state. -/
theorem of_and {p : Prop} (h : p → Triple P m Q E) : Triple (fun s => p ∧ P s) m Q E :=
  fun s hs => h hs.1 s hs.2

end Triple

/-! ## Programs that leave a part of the state alone -/

/-- The program does not change what `f` reads. -/
def Keeps {γ : Type} (f : σ → γ) (m : EStateM ε σ α) : Prop := ∀ s, f (after m s) = f s

section
variable {γ : Type} {f : σ → γ}

theorem keeps_pure {a : α} : Keeps f (pure a : EStateM ε σ α) := fun _ => rfl

theorem keeps_throw {e : ε} : Keeps f (throw e : EStateM ε σ α) := fun _ => rfl

theorem keeps_modify {g : σ → σ} (h : ∀ s, f (g s) = f s) : Keeps f (modify g : EStateM ε σ PUnit) := h

variable {m : EStateM ε σ α}

theorem Keeps.bind {k : α → EStateM ε σ β} (hm : Keeps f m) (hk : ∀ a, Keeps f (k a)) : Keeps f (m >>= k) := by
  intro s
  have h := hm s
  cases hr : m s with
  | ok a s' =>
    rw [after_ok hr] at h
    rw [after_bind hr, hk a s']
    exact h
  | error e s' =>
    rw [after_error hr] at h
    rw [after_bind_error hr]
    exact h

theorem keeps_get_bind {k : σ → EStateM ε σ α} (h : ∀ s, f (after (k s) s) = f s) : Keeps f (get >>= k) := h

theorem Keeps.of_ok (h : Keeps f m) {s s' : σ} {a : α} (hm : m s = .ok a s') : f s' = f s := by
  have := h s
  rwa [after_ok hm] at this

theorem Keeps.of_error (h : Keeps f m) {s s' : σ} {e : ε} (hm : m s = .error e s') : f s' = f s := by
  have := h s
  rwa [after_error hm] at this

/-- A property of that part holds afterwards if it held before. -/
theorem Keeps.triple (h : Keeps f m) (P : γ → Prop) :
    Triple (fun s => P (f s)) m (fun _ s => P (f s)) (fun s => P (f s)) := by
  intro s hs
  cases hr : m s with
  | ok a s' =>
    show P (f s')
    rw [h.of_ok hr]
    exact hs
  | error e s' =>
    show P (f s')
    rw [h.of_error hr]
    exact hs

end

/-! ## Programs that move the state along a preorder -/

/-- Whether it returns or throws, the program leaves a state that `R` relates to the one before. -/
def Along (R : σ → σ → Prop) (m : EStateM ε σ α) : Prop := ∀ s, R s (after m s)

section
variable {R : σ → σ → Prop}

theorem along_modify {g : σ → σ} (h : ∀ s, R s (g s)) : Along R (modify g : EStateM ε σ PUnit) := h

theorem along_get_bind {k : σ → EStateM ε σ α} (h : ∀ s, R s (after (k s) s)) : Along R (get >>= k) := h

variable {m : EStateM ε σ α}

theorem Along.of_ok (h : Along R m) {s s' : σ} {a : α} (hm : m s = .ok a s') : R s s' := by
  have := h s
  rwa [after_ok hm] at this

theorem Along.of_error (h : Along R m) {s s' : σ} {e : ε} (hm : m s = .error e s') : R s s' := by
  have := h s
  rwa [after_error hm] at this

theorem Along.ite {p : Prop} [Decidable p] {m₁ m₂ : EStateM ε σ α} (h₁ : Along R m₁) (h₂ : Along R m₂) :
    Along R (if p then m₁ else m₂) := by
  split
  · exact h₁
  · exact h₂

variable [IsPreorder σ R]

theorem along_pure {a : α} : Along R (pure a : EStateM ε σ α) := fun s => refl_of R s

theorem along_throw {e : ε} : Along R (throw e : EStateM ε σ α) := fun s => refl_of R s

theorem Along.bind {k : α → EStateM ε σ β} (hm : Along R m) (hk : ∀ a, Along R (k a)) : Along R (m >>= k) := by
  intro s
  cases hr : m s with
  | ok a s' =>
    rw [after_bind hr]
    exact trans_of R (hm.of_ok hr) (hk a s')
  | error e s' =>
    rw [after_bind_error hr]
    exact hm.of_error hr

theorem Along.tryCatch {k : ε → EStateM ε σ α} (hm : Along R m) (hk : ∀ e, Along R (k e)) : Along R (tryCatch m k) := by
  intro s
  cases hr : m s with
  | ok a s' =>
    rw [after_ok (run_tryCatch hr)]
    exact hm.of_ok hr
  | error e s' =>
    rw [after_congr (run_tryCatch_error hr)]
    exact trans_of R (hm.of_error hr) (hk e s')

end

end Lib
