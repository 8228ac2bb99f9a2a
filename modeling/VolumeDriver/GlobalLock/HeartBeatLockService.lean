/-
The lock service of a client (HeartBeatLockService.cpp, HeartBeat.cpp). A successful `lock` starts a heartbeat
thread; `unlock` interrupts that thread and joins it with the service's mutex in its hands, and a thread that has
lost the lock calls `finish_thread`, which takes the mutex. Any number of clients call `lock` and `unlock`.
-/
import VolumeDriver.Lib.Steps
import Mathlib.Logic.Function.Basic
import Mathlib.Tactic

namespace VolumeDriver.HeartBeatLockService

open Lib Function

/-! ## The service -/

/-- Where a heartbeat thread is: in its loop, which sleeps and refreshes the lock; freeing the lock because it was
interrupted; waiting for the mutex in `finish_thread`; or at its end. -/
inductive Phase
  | beating | freeing | finishing | ended
  deriving DecidableEq, Repr

/-- Heartbeat threads are numbered by the calls of `lock` that started them. The mutex is held by `unlock` while
it joins a thread; the other sections under it are one step each. `callbacks` is not in the source. -/
structure State where
  started : Nat := 0
  phase : Nat → Phase := fun _ => .ended
  interrupted : Nat → Bool := fun _ => false
  callbacks : Nat → Nat := fun _ => 0
  heartbeat_thread_ : Option Nat := none
  joining : Option Nat := none

/-- `lock` and `unlock` of a client up to the join, the end of the join, and what a heartbeat thread does: it comes
to an interruption point, it has freed the lock, `refreshLock` returns false or throws, it gets the mutex. -/
inductive Action
  | lock (grab_lock : Bool)
  | unlock
  | join
  | interruption_point (t : Nat)
  | freeLock (t : Nat)
  | lost (t : Nat)
  | finish_thread (t : Nat)
  deriving DecidableEq, Repr

/-- `do_callback`, for the `lock` that started the thread. -/
def State.do_callback (s : State) (t : Nat) : State := { s with callbacks := update s.callbacks t (s.callbacks t + 1) }

/-- The thread goes on to a phase. -/
def State.enters (s : State) (t : Nat) (p : Phase) : State := { s with phase := update s.phase t p }

/-- An action whose thread cannot take it leaves the state as it is: it waits. -/
def step (s : State) : Action → State
  | .lock grab_lock =>
    if s.joining = none ∧ s.heartbeat_thread_ = none ∧ grab_lock then
      { s.enters s.started .beating with started := s.started + 1, heartbeat_thread_ := some s.started }
    else s
  | .unlock =>
    match s.joining, s.heartbeat_thread_ with
    | none, some t => { s.do_callback t with interrupted := update s.interrupted t true, joining := some t }
    | _, _ => s
  | .join =>
    match s.joining with
    | some t => if s.phase t = .ended then { s with heartbeat_thread_ := none, joining := none } else s
    | none => s
  | .interruption_point t => if s.phase t = .beating ∧ s.interrupted t then s.enters t .freeing else s
  | .freeLock t => if s.phase t = .freeing then s.enters t .ended else s
  | .lost t => if s.phase t = .beating then s.enters t .finishing else s
  | .finish_thread t =>
    if s.phase t = .finishing ∧ s.joining = none then
      match s.heartbeat_thread_ with
      | some t' => { (s.do_callback t').enters t .ended with heartbeat_thread_ := none }
      | none => s.enters t .ended
    else s

/-! ## What the service is to do -/

/-- A thread waits for the mutex, and the holder of the mutex waits for the end of that thread. -/
def Deadlock (s : State) : Prop := ∃ t, s.joining = some t ∧ s.phase t = .finishing

/-- Each successful `lock` has had its callback, unless it is still in force. -/
def CalledOnce (s : State) : Prop :=
  ∀ t < s.started, s.callbacks t = if s.heartbeat_thread_ = some t ∧ s.joining = none then 0 else 1

/-- The action is the last one of an `unlock`. -/
def Returns (s : State) : Action → Prop
  | .unlock => s.joining = none ∧ s.heartbeat_thread_ = none
  | .join => s.joining ≠ none ∧ (step s .join).joining = none
  | _ => False

/-- No deadlock, one callback for each `lock`, and no heartbeat after `unlock`. -/
structure Right (s : State) (a : Action) : Prop where
  noDeadlock : ¬ Deadlock (step s a)
  calledOnce : CalledOnce (step s a)
  quiet : Returns s a → ∀ t, (step s a).phase t ≠ .beating

/-- No `unlock` begins when the heartbeat has ended by itself and has not finished yet, and no heartbeat ends by
itself while an `unlock` joins it. -/
def InTime (s : State) : Action → Prop
  | .unlock => ∀ t, s.heartbeat_thread_ = some t → s.phase t ≠ .finishing
  | .lost t => s.phase t = .beating → s.joining ≠ some t
  | _ => True

/-! ## Every step -/

/-- All but one thread have ended, and that one is the service's. -/
structure Inv (s : State) : Prop where
  owned : ∀ t, s.phase t ≠ .ended → s.heartbeat_thread_ = some t
  joined : ∀ t, s.joining = some t → s.heartbeat_thread_ = some t
  started : ∀ t, s.heartbeat_thread_ = some t → t < s.started
  fresh : ∀ t, s.started ≤ t → s.callbacks t = 0
  calledOnce : CalledOnce s
  noDeadlock : ¬ Deadlock s

variable {s : State} {a : Action} {t t' : Nat} {p : Phase}

theorem enters_phase : (s.enters t p).phase t' = if t' = t then p else s.phase t' := update_apply ..

namespace Inv

theorem enters (h : Inv s) (ht : s.phase t ≠ .ended) (hp : s.joining = some t → p ≠ .finishing) :
    Inv (s.enters t p) := by
  refine ⟨fun t' ht' => ?_, h.joined, h.started, h.fresh, h.calledOnce, ?_⟩
  · rw [enters_phase] at ht'
    split at ht'
    next heq => exact heq ▸ h.owned t ht
    next => exact h.owned t' ht'
  · rintro ⟨t', hj, hf⟩
    rw [enters_phase] at hf
    split at hf
    next heq => exact hp (heq ▸ hj) hf
    next => exact h.noDeadlock ⟨t', hj, hf⟩

theorem all_ended (h : Inv s) (hnone : s.heartbeat_thread_ = none) (t : Nat) : s.phase t = .ended := by
  by_contra hne
  rw [h.owned t hne] at hnone
  cases hnone

theorem after (h : Inv s) (ha : InTime s a) : Inv (step s a) := by
  cases a with
  | lock grab_lock =>
    rw [step]
    split
    next hfree =>
      obtain ⟨hj, hnone, -⟩ := hfree
      have hended := h.all_ended hnone
      have hfresh := h.fresh
      have honce := h.calledOnce
      rw [State.enters]
      constructor <;> grind [update_apply, Deadlock, CalledOnce]
    next => exact h
  | unlock =>
    rw [step]
    split
    next t hj ht =>
      obtain ⟨howned, -, hstarted, hfresh, honce, -⟩ := h
      rw [State.do_callback]
      constructor <;> grind [update_apply, Deadlock, CalledOnce, InTime]
    next => exact h
  | join =>
    rw [step]
    split
    next t hj =>
      split
      next hended =>
        have ht := h.joined t hj
        obtain ⟨howned, -, -, hfresh, honce, -⟩ := h
        constructor <;> grind [Deadlock, CalledOnce]
      next => exact h
    next => exact h
  | interruption_point t =>
    rw [step]
    split
    next hp => exact h.enters (by simp [hp.1]) (by simp)
    next => exact h
  | freeLock t =>
    rw [step]
    split
    next hp => exact h.enters (by simp [hp]) (by simp)
    next => exact h
  | lost t =>
    rw [step]
    split
    next hp => exact h.enters (by simp [hp]) fun hj => absurd hj (ha hp)
    next => exact h
  | finish_thread t =>
    rw [step]
    split
    next hp =>
      rw [h.owned t (by simp [hp.1])]
      obtain ⟨howned, -, hstarted, hfresh, honce, -⟩ := h
      dsimp only
      rw [State.enters, State.do_callback]
      constructor <;> grind [update_apply, Deadlock, CalledOnce]
    next => exact h

theorem quiet (h : Inv s) (ha : InTime s a) (hret : Returns s a) (t : Nat) : (step s a).phase t ≠ .beating := by
  have hnone : (step s a).heartbeat_thread_ = none := by
    cases a with
    | unlock => simp [step, hret.1, hret.2]
    | join => grind [step, Returns]
    | _ => exact hret.elim
  simp [(h.after ha).all_ended hnone t]

/-- An action out of time ends in a deadlock. -/
theorem deadlock (h : Inv s) (ha : ¬ InTime s a) : Deadlock (step s a) := by
  cases a with
  | unlock =>
    simp only [InTime, not_forall, not_not] at ha
    obtain ⟨t, ht, hf⟩ := ha
    cases hj : s.joining with
    | none => exact ⟨t, by simp [step, hj, ht], by simpa [step, hj, ht, State.do_callback] using hf⟩
    | some t' =>
      obtain rfl : t' = t := Option.some.inj ((h.joined t' hj).symm.trans ht)
      exact absurd ⟨t', hj, hf⟩ h.noDeadlock
  | lost t =>
    simp only [InTime, not_forall, not_not] at ha
    obtain ⟨hp, hj⟩ := ha
    rw [step, if_pos hp]
    exact ⟨t, hj, enters_phase.trans (if_pos rfl)⟩
  | _ => exact absurd trivial ha

end Inv

/-! ## Every run -/

/-- The service does not block itself in exactly the runs that are in time. -/
theorem never_blocks_itself_iff (as : List Action) : Each step Right {} as ↔ Each step InTime {} as := by
  refine each_iff Inv (fun s a h => ⟨fun hright => ?_, fun ha => ?_⟩) (fun s a h ha => h.after ha) ?_
  · by_contra ha
    exact hright.noDeadlock (h.deadlock ha)
  · exact ⟨(h.after ha).noDeadlock, (h.after ha).calledOnce, h.quiet ha⟩
  · constructor <;> simp [Deadlock, CalledOnce]

/-- The heartbeat loses the lock, and a client unlocks before `finish_thread` has the mutex. -/
theorem unlock_after_loss_deadlocks : Deadlock (runs step {} [.lock true, .lost 0, .unlock]) := ⟨0, rfl, rfl⟩

end VolumeDriver.HeartBeatLockService
