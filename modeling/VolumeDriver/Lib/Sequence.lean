/-
A key-value store that is read one key at a time and changed by sequences of assertions and updates,
each carried out as a whole or not at all. Clients prepare a sequence from what they read, hand it in,
and prepare it again when one of its assertions failed. What holds of the store in every run of any
number of clients is reduced here to what a sequence does that is carried out.
-/
import VolumeDriver.Lib.Steps
import Mathlib.Logic.Function.Basic

namespace Lib.Sequence

open Function

/-! ## Sequences -/

/-- One step of a sequence. An assertion says what value a key has, or that it has none. -/
inductive Update (K V : Type)
  | assert (key : K) (value : Option V)
  | set (key : K) (value : V)
  | delete (key : K)
  deriving DecidableEq, Repr

/-- Why a sequence was not carried out. -/
inductive Refusal
  | assertionFailed
  | notFound
  deriving DecidableEq, Repr

section

variable {K V : Type} [DecidableEq K] [DecidableEq V]

/-- The updates are carried out in order; the first one that fails undoes all of them. -/
def exec : List (Update K V) → (K → Option V) → Except Refusal (K → Option V)
  | [], st => .ok st
  | .assert k v :: us, st => if st k = v then exec us st else .error .assertionFailed
  | .set k v :: us, st => exec us (update st k (some v))
  | .delete k :: us, st => if (st k).isSome then exec us (update st k none) else .error .notFound

variable {us : List (Update K V)} {st st' : K → Option V}

@[simp] theorem exec_nil : exec [] st = .ok st' ↔ st = st' := by
  simp [exec]

variable {k : K}

@[simp] theorem exec_assert {v : Option V} :
    exec (.assert k v :: us) st = .ok st' ↔ st k = v ∧ exec us st = .ok st' := by
  rw [exec]
  split <;> simp_all

@[simp] theorem exec_set {v : V} :
    exec (.set k v :: us) st = .ok st' ↔ exec us (update st k (some v)) = .ok st' := Iff.rfl

@[simp] theorem exec_delete :
    exec (.delete k :: us) st = .ok st' ↔ (st k).isSome ∧ exec us (update st k none) = .ok st' := by
  rw [exec]
  split <;> simp_all

end

/-! ## Programs that read the store -/

/-- A program that reads one key after the other and then returns or throws. -/
inductive Reads (K V E α : Type)
  | pure (a : α)
  | throw (e : E)
  | get (key : K) (next : Option V → Reads K V E α)

namespace Reads

variable {K V E α β : Type}

/-- One program after the other. -/
def bind : Reads K V E α → (α → Reads K V E β) → Reads K V E β
  | .pure a, f => f a
  | .throw e, _ => .throw e
  | .get k next, f => .get k fun v => (next v).bind f

/-- Programs are sequenced by `bind`. -/
instance : Monad (Reads K V E) where
  pure := .pure
  bind := bind

/-- The value under the key, or the error `e`. -/
def find (k : K) (e : E) : Reads K V E V :=
  .get k fun
    | some v => .pure v
    | none => .throw e

/-- Whatever the program reads: what it returns meets `P`, together with what it has read until then. -/
def Leaves (P : List (K × Option V) → α → Prop) : List (K × Option V) → Reads K V E α → Prop
  | log, .pure a => P log a
  | _, .throw _ => True
  | log, .get k next => ∀ v, Leaves P (log ++ [(k, v)]) (next v)

variable {P : List (K × Option V) → α → Prop} {Q : List (K × Option V) → β → Prop} {log : List (K × Option V)}

@[simp] theorem leaves_pure {a : α} : (Pure.pure a : Reads K V E α).Leaves P log ↔ P log a := Iff.rfl

theorem Leaves.mono {P' : List (K × Option V) → α → Prop} (h : ∀ log a, P log a → P' log a) :
    ∀ {m : Reads K V E α} {log : List (K × Option V)}, m.Leaves P log → m.Leaves P' log
  | .pure a, log, hm => h log a hm
  | .throw _, _, _ => trivial
  | .get _ next, _, hm => fun v => Leaves.mono h (m := next v) (hm v)

theorem Leaves.bind {f : α → Reads K V E β} (hf : ∀ log a, P log a → (f a).Leaves Q log) :
    ∀ {m : Reads K V E α} {log : List (K × Option V)}, m.Leaves P log → (m >>= f).Leaves Q log
  | .pure a, log, hm => hf log a hm
  | .throw _, _, _ => trivial
  | .get _ next, _, hm => fun v => Leaves.bind hf (m := next v) (hm v)

/-- Whatever comes first, when nothing has to be known of it. -/
theorem leaves_bind {f : α → Reads K V E β} (hf : ∀ log a, (f a).Leaves Q log) :
    ∀ {m : Reads K V E α} {log : List (K × Option V)}, (m >>= f).Leaves Q log
  | .pure a, log => hf log a
  | .throw _, _ => trivial
  | .get _ next, _ => fun v => leaves_bind hf (m := next v)

/-- What has been read stays in the log. -/
theorem Leaves.and_subset : ∀ {m : Reads K V E α} {log : List (K × Option V)}, m.Leaves P log →
    m.Leaves (fun log' a => P log' a ∧ log ⊆ log') log
  | .pure _, _, hm => ⟨hm, List.Subset.refl _⟩
  | .throw _, _, _ => trivial
  | .get _ next, log, hm => fun v => by
    refine Leaves.mono ?_ (Leaves.and_subset (m := next v) (hm v))
    rintro log' a ⟨ha, hsub⟩
    exact ⟨ha, fun x hx => hsub (List.mem_append_left _ hx)⟩

theorem leaves_find {k : K} {e : E} {P : List (K × Option V) → V → Prop} {log : List (K × Option V)}
    (h : ∀ v, P (log ++ [(k, some v)]) v) : (find k e : Reads K V E V).Leaves P log := by
  rintro (_ | v)
  · trivial
  · exact h v

end Reads

/-! ## Clients -/

/-- What the calls `Op` of a client do. An attempt of a call starts from what the attempts before it
have kept and gives what it keeps, the result and the sequence to carry out. -/
structure Service (K V E Op κ R : Type) where
  prepare : Op → κ → Nat → Reads K V E (κ × R × List (Update K V))
  kept : κ
  retry : Op → κ → Bool
  maxRetries : Nat
  refused : Op → κ → Refusal → E

/-- What a client is at. -/
inductive Client (K V E Op κ R : Type)
  | idle
  /-- In an attempt of a call: the number of attempts before it, what it has read and what is left of it. -/
  | busy (op : Op) (tries : Nat) (log : List (K × Option V)) (todo : Reads K V E (κ × R × List (Update K V)))
  | returned (op : Op) (result : R)
  | threw (op : Op) (e : E)

/-- The store and the clients. -/
structure State (K V E Op κ R : Type) where
  store : K → Option V
  clients : Nat → Client K V E Op κ R := fun _ => .idle

/-- What can happen. -/
inductive Action (Op : Type)
  /-- A client that is not in a call makes one. -/
  | call (client : Nat) (op : Op)
  /-- A client reads the next key, or hands in its sequence. -/
  | step (client : Nat)
  deriving DecidableEq, Repr

section

variable {K V E Op κ R : Type}

/-- In an attempt of a call. -/
def Client.isBusy : Client K V E Op κ R → Bool
  | busy _ _ _ _ => true
  | _ => false

/-- The state with the client replaced. -/
def State.withClient (s : State K V E Op κ R) (c : Nat) (client : Client K V E Op κ R) : State K V E Op κ R :=
  { s with clients := update s.clients c client }

section

variable [DecidableEq K] [DecidableEq V] (S : Service K V E Op κ R)

/-- The client hands in the sequence of its attempt. -/
def submit (s : State K V E Op κ R) (c : Nat) (op : Op) (tries : Nat) (attempt : κ × R × List (Update K V)) :
    State K V E Op κ R :=
  match exec attempt.2.2 s.store with
  | .ok st => { s.withClient c (.returned op attempt.2.1) with store := st }
  | .error .assertionFailed =>
    if tries + 1 < S.maxRetries ∧ S.retry op attempt.1 then
      s.withClient c (.busy op (tries + 1) [] (S.prepare op attempt.1 (tries + 1)))
    else
      s.withClient c (.threw op (S.refused op attempt.1 .assertionFailed))
  | .error .notFound => s.withClient c (.threw op (S.refused op attempt.1 .notFound))

/-- A call is made. -/
def start (s : State K V E Op κ R) (c : Nat) (op : Op) : State K V E Op κ R :=
  if (s.clients c).isBusy then s else s.withClient c (.busy op 0 [] (S.prepare op S.kept 0))

/-- The client goes on with its attempt. -/
def advance (s : State K V E Op κ R) (c : Nat) : State K V E Op κ R :=
  match s.clients c with
  | .busy op tries log (.get k next) => s.withClient c (.busy op tries (log ++ [(k, s.store k)]) (next (s.store k)))
  | .busy op _ _ (.throw e) => s.withClient c (.threw op e)
  | .busy op tries _ (.pure attempt) => submit S s c op tries attempt
  | _ => s

/-- One action. -/
def step (s : State K V E Op κ R) : Action Op → State K V E Op κ R
  | .call c op => start S s c op
  | .step c => advance S s c

end

/-! ## What holds of the store -/

variable {Leaf : Op → Nat → List (K × Option V) → κ × R × List (Update K V) → Prop}

/-- Whatever the client still reads, the sequence it hands in will meet `Leaf`. -/
def Client.Ready (Leaf : Op → Nat → List (K × Option V) → κ × R × List (Update K V) → Prop) :
    Client K V E Op κ R → Prop
  | .busy op tries log todo => todo.Leaves (Leaf op tries) log
  | _ => True

/-- All clients are ready. -/
def State.Ready (Leaf : Op → Nat → List (K × Option V) → κ × R × List (Update K V) → Prop)
    (s : State K V E Op κ R) : Prop :=
  ∀ c, (s.clients c).Ready Leaf

theorem State.ready_idle (st : K → Option V) : (State.mk st fun _ => .idle : State K V E Op κ R).Ready Leaf :=
  fun _ => trivial

variable {s : State K V E Op κ R}

theorem State.Ready.withClient (h : s.Ready Leaf) (c : Nat) {client : Client K V E Op κ R}
    (hc : client.Ready Leaf) : (s.withClient c client).Ready Leaf := by
  intro c'
  show Client.Ready Leaf (update s.clients c client c')
  by_cases hcc : c' = c
  · subst hcc
    rw [update_self]
    exact hc
  · rw [update_of_ne hcc]
    exact h c'

variable [DecidableEq K] [DecidableEq V] {S : Service K V E Op κ R}

/-- The action carries out the sequence of a call. -/
structure Commits (s : State K V E Op κ R) (a : Action Op) (op : Op) (tries : Nat) (log : List (K × Option V))
    (attempt : κ × R × List (Update K V)) (st : K → Option V) : Prop where
  submits : ∃ c, a = .step c ∧ s.clients c = .busy op tries log (.pure attempt)
  carriedOut : exec attempt.2.2 s.store = .ok st

section

variable (hleaf : ∀ op kept tries, (S.prepare op kept tries).Leaves (Leaf op tries) [])
include hleaf

variable {s : State K V E Op κ R}

theorem State.Ready.submit (h : s.Ready Leaf) (c : Nat) (op : Op) (tries : Nat)
    (attempt : κ × R × List (Update K V)) : (submit S s c op tries attempt).Ready Leaf := by
  unfold Sequence.submit
  split
  · exact h.withClient c (trivial : Client.Ready Leaf (.returned op attempt.2.1))
  · split
    · exact h.withClient c (hleaf op _ _)
    · exact h.withClient c trivial
  · exact h.withClient c trivial

theorem State.Ready.advance (h : s.Ready Leaf) (c : Nat) : (advance S s c).Ready Leaf := by
  have hc := h c
  unfold Sequence.advance
  split <;> rename_i heq
  · rw [heq] at hc
    exact h.withClient c (hc _)
  · exact h.withClient c trivial
  · exact h.submit hleaf c _ _ _
  · exact h

theorem State.Ready.step (h : s.Ready Leaf) (a : Action Op) : (step S s a).Ready Leaf := by
  cases a with
  | call c op =>
    show (start S s c op).Ready Leaf
    unfold start
    split
    · exact h
    · exact h.withClient c (hleaf op _ _)
  | step c => exact h.advance hleaf c

end

theorem submit_store (s : State K V E Op κ R) (c : Nat) (op : Op) (tries : Nat) (attempt : κ × R × List (Update K V)) :
    (submit S s c op tries attempt).store = s.store ∨
      exec attempt.2.2 s.store = .ok (submit S s c op tries attempt).store := by
  unfold submit
  split <;> rename_i heq
  · exact .inr heq
  · split <;> exact .inl rfl
  · exact .inl rfl

/-- The store only changes by a sequence that is carried out. -/
theorem step_store (h : s.Ready Leaf) (a : Action Op) : (step S s a).store = s.store ∨
      ∃ op tries log attempt, Leaf op tries log attempt ∧ Commits s a op tries log attempt (step S s a).store := by
  cases a with
  | call c op =>
    left
    show (start S s c op).store = s.store
    unfold start
    split <;> rfl
  | step c =>
    have hc := h c
    show (advance S s c).store = s.store ∨
      ∃ op tries log attempt, _ ∧ Commits s _ op tries log attempt (advance S s c).store
    unfold advance
    split <;> rename_i heq
    · exact .inl rfl
    · exact .inl rfl
    · rw [heq] at hc
      rcases submit_store (S := S) s c _ _ _ with hst | hst
      · exact .inl hst
      · exact .inr ⟨_, _, _, _, hc, ⟨c, rfl, heq⟩, hst⟩
    · exact .inl rfl

/-- What every sequence keeps that is carried out under the condition `C` holds after every run whose
actions meet it. -/
theorem runs_store (hleaf : ∀ op kept tries, (S.prepare op kept tries).Leaves (Leaf op tries) [])
    {C : State K V E Op κ R → Action Op → Prop} (Inv : (K → Option V) → Prop)
    (hcommit : ∀ s a op tries log attempt st, Inv s.store → C s a → Leaf op tries log attempt →
      Commits s a op tries log attempt st → Inv st)
    (hs : Inv s.store) (hr : s.Ready Leaf) {as : List (Action Op)}
    (h : Each (step S) C s as) : Inv (runs (step S) s as).store := by
  refine (runs_invariant (P := C) (fun s => Inv s.store ∧ s.Ready Leaf) ?_ ⟨hs, hr⟩ h).1
  rintro s a ⟨hi, hr⟩ hc
  refine ⟨?_, hr.step hleaf a⟩
  rcases step_store (S := S) hr a with hst | ⟨op, tries, log, attempt, hl, hst⟩
  · rw [hst]
    exact hi
  · exact hcommit s a op tries log attempt _ hi hc hl hst

end

end Lib.Sequence
