/-
Periodic tasks (PeriodicActionPool.cpp). The handler of a task's timer queues the task; a worker takes it from the
queue, runs its action with the task's lock released, and sets the timer again. `cancel` is called once for each
task at most, at any moment but not by its own action. Each step is a section under the task's lock or the pool's.
The queue's pointers are weak: a task that is gone when a worker takes it was cancelled, and running it here changes
nothing.
-/
import VolumeDriver.Lib.Steps
import Mathlib.Tactic

namespace VolumeDriver.PeriodicActionPool

open Lib Function List

/-! ## The pool -/

/-- The states of a task. -/
inductive State
  | Timer | Queue | Exec | Stopped
  deriving DecidableEq, Repr

/-- How far the call of `cancel` has come. -/
inductive Cancel
  | notCalled | waiting | returned
  deriving DecidableEq, Repr

/-- `deadline_` is the outstanding wait of the timer, and whether it was cancelled. `cancel` and `asked`, whether the
action has asked to stop, are not in the source. -/
structure TaskImpl where
  state_ : State := .Timer
  stop_ : Bool := false
  deadline_ : Option Bool := some false
  cancel : Cancel := .notCalled
  asked : Bool := false
  deriving DecidableEq, Repr

/-- Workers hold the tasks that they have taken and not locked yet, and those whose action they run. -/
structure Pool (T : Type) where
  task : T → TaskImpl := fun _ => {}
  queue_ : List T := []
  taken : List T := []
  executing : List T := []

/-- The handler of the timer, with `operation_aborted` or without an error; `run_worker_` takes a task; `run` up to the
action and from its end, where one that throws goes on; `cancel` and its return. -/
inductive Action (T : Type)
  | timer (t : T) (aborted : Bool)
  | take
  | run (t : T)
  | ran (t : T) (cont : Bool)
  | cancel (t : T)
  | cancelled (t : T)

namespace TaskImpl

variable (i : TaskImpl)

/-- The task has stopped. -/
def stop_and_notify : TaskImpl := { i with stop_ := true, state_ := .Stopped }

/-- The end of `run`. -/
def finish (cont : Bool) : TaskImpl :=
  if !cont || i.stop_ then i.stop_and_notify else { i with state_ := .Timer, deadline_ := some false }

/-- The handler of the timer. -/
def fired (aborted : Bool) : TaskImpl :=
  if i.stop_ || aborted then { i.stop_and_notify with deadline_ := none }
  else { i with state_ := .Queue, deadline_ := none }

/-- `cancel` up to its wait. -/
def cancel_ : TaskImpl :=
  match i.state_ with
  | .Timer => { i with stop_ := true, cancel := .waiting, deadline_ := i.deadline_.map fun _ => true }
  | .Exec => { i with stop_ := true, cancel := .waiting }
  | .Queue => { i with stop_ := true, cancel := .returned, state_ := .Stopped }
  | .Stopped => { i with stop_ := true, cancel := .returned }

end TaskImpl

variable {T : Type} [DecidableEq T]

/-- With this number of threads. A wait that was cancelled may have ended before that, without an error. An action that
cannot be taken leaves the pool as it is. -/
def step (nthreads : Nat) (s : Pool T) : Action T → Pool T
  | .timer t aborted =>
    if (s.task t).deadline_ = some true ∨ (s.task t).deadline_ = some false ∧ aborted = false then
      { s with
        task := update s.task t ((s.task t).fired aborted)
        queue_ := if (s.task t).stop_ || aborted then s.queue_ else s.queue_ ++ [t] }
    else s
  | .take =>
    match s.queue_ with
    | t :: rest =>
      if s.taken.length + s.executing.length < nthreads then { s with queue_ := rest, taken := t :: s.taken } else s
    | [] => s
  | .run t =>
    if t ∈ s.taken then
      if (s.task t).state_ = .Queue then
        { s with
          task := update s.task t { s.task t with state_ := .Exec }
          taken := s.taken.erase t
          executing := t :: s.executing }
      else { s with task := update s.task t ((s.task t).finish true), taken := s.taken.erase t }
    else s
  | .ran t cont =>
    if t ∈ s.executing then
      { s with
        task := update s.task t { (s.task t).finish cont with asked := (s.task t).asked || !cont }
        executing := s.executing.erase t }
    else s
  | .cancel t =>
    if (s.task t).cancel = .notCalled then { s with task := update s.task t (s.task t).cancel_ } else s
  | .cancelled t =>
    if (s.task t).cancel = .waiting ∧ (s.task t).state_ = .Stopped then
      { s with task := update s.task t { s.task t with cancel := .returned } }
    else s

/-- What is to hold for a task: there is one execution of its action at most, and none any more once `cancel` has
returned; `cancel` does not wait in vain; and the task is not lost. -/
structure Right (n : Nat) (s : Pool T) (t : T) : Prop where
  one : s.executing.count t ≤ 1
  quiet : (s.task t).cancel = .returned → ∀ as, (runs (step n) s as).executing.count t = 0
  returns : (s.task t).cancel = .waiting → ∃ a, ((step n s a).task t).state_ = .Stopped
  kept : (s.task t).cancel = .notCalled → (s.task t).asked = false →
    (s.task t).state_ = .Timer ∧ (s.task t).deadline_ ≠ none ∨
      (s.task t).state_ = .Queue ∧ (t ∈ s.queue_ ∨ t ∈ s.taken) ∨ (s.task t).state_ = .Exec ∧ t ∈ s.executing

/-! ## Every step -/

/-- A task that is so many times in the queue or with a worker that has taken it, and so many times executing. -/
structure Inv (i : TaskImpl) (queued executing : Nat) : Prop where
  placed : match i.state_ with
    | .Timer => i.deadline_ ≠ none ∧ queued = 0 ∧ executing = 0
    | .Queue => i.deadline_ = none ∧ queued = 1 ∧ executing = 0
    | .Exec => i.deadline_ = none ∧ queued = 0 ∧ executing = 1
    | .Stopped => i.deadline_ = none ∧ queued ≤ 1 ∧ executing = 0
  stopped : i.state_ = .Stopped → i.stop_ = true
  stop : i.stop_ = true ↔ i.cancel ≠ .notCalled ∨ i.asked = true
  waiting : i.cancel = .waiting → i.state_ ≠ .Queue
  returned : i.cancel = .returned → i.state_ = .Stopped
  asked : i.asked = true → i.state_ = .Stopped
  aborted : i.deadline_ = some true → i.stop_ = true

namespace Inv

variable {i : TaskImpl} {q e : Nat}

theorem fired (h : Inv i q e) {aborted : Bool}
    (hd : i.deadline_ = some true ∨ i.deadline_ = some false ∧ aborted = false) :
    Inv (i.fired aborted) (if i.stop_ || aborted then q else q + 1) e := by
  unfold TaskImpl.fired TaskImpl.stop_and_notify
  split <;> constructor <;> grind [Inv]

theorem run (h : Inv i (q + 1) e) (hq : i.state_ = .Queue) : Inv { i with state_ := .Exec } q (e + 1) := by
  constructor <;> grind [Inv]

theorem run_stopped (h : Inv i (q + 1) e) (hq : i.state_ ≠ .Queue) : Inv (i.finish true) q e := by
  unfold TaskImpl.finish TaskImpl.stop_and_notify
  split <;> constructor <;> grind [Inv]

theorem ran (h : Inv i q (e + 1)) (cont : Bool) : Inv { i.finish cont with asked := i.asked || !cont } q e := by
  unfold TaskImpl.finish TaskImpl.stop_and_notify
  split <;> constructor <;> grind [Inv]

theorem cancel_ (h : Inv i q e) : Inv i.cancel_ q e := by
  unfold TaskImpl.cancel_
  split <;> constructor <;> grind [Inv, Option.map_eq_none_iff]

end Inv

/-- Every task is where its state says. -/
def Ok (s : Pool T) : Prop := ∀ t, Inv (s.task t) (s.queue_.count t + s.taken.count t) (s.executing.count t)

variable {s : Pool T} {t : T}

theorem Ok.concerns (h : Ok s) (t : T) {i : TaskImpl} {queue_ taken executing : List T}
    (hother : ∀ t' ≠ t, queue_.count t' + taken.count t' = s.queue_.count t' + s.taken.count t' ∧
      executing.count t' = s.executing.count t')
    (hi : Inv i (queue_.count t + taken.count t) (executing.count t)) :
    Ok ⟨update s.task t i, queue_, taken, executing⟩ := by
  intro t'
  by_cases ht : t' = t
  · subst ht
    simpa using hi
  · simpa [ht, hother t' ht] using h t'

theorem Ok.after (h : Ok s) (n : Nat) (a : Action T) : Ok (step n s a) := by
  cases a <;> rw [step]
  case timer t aborted =>
    split
    · next hd =>
      refine h.concerns t (by grind) ?_
      have := (h t).fired hd
      grind
    · exact h
  case take =>
    split
    · split
      · intro t'
        have := h t'
        grind
      · exact h
    · exact h
  case run t =>
    split
    · next ht =>
      have hcount : s.taken.count t = (s.taken.erase t).count t + 1 := by grind
      have hi := h t
      rw [hcount, ← Nat.add_assoc] at hi
      split
      · next hq => exact h.concerns t (by grind) (by simpa using hi.run hq)
      · next hq => exact h.concerns t (by grind) (hi.run_stopped hq)
    · exact h
  case ran t cont =>
    split
    · next ht =>
      have hcount : s.executing.count t = (s.executing.erase t).count t + 1 := by grind
      exact h.concerns t (by grind) ((hcount ▸ h t).ran cont)
    · exact h
  case cancel t =>
    split
    · exact h.concerns t (fun _ _ => ⟨rfl, rfl⟩) (h t).cancel_
    · exact h
  case cancelled t =>
    split
    · refine h.concerns t (fun _ _ => ⟨rfl, rfl⟩) ?_
      have := h t
      constructor <;> grind [Inv]
    · exact h

theorem returned_step (h : (s.task t).cancel = .returned) (n : Nat) (a : Action T) :
    ((step n s a).task t).cancel = .returned := by
  have hset : ∀ t' i, ((s.task t').cancel = .returned → i.cancel = .returned) →
      (update s.task t' i t).cancel = .returned := by
    intro t' i hi
    by_cases ht : t = t'
    · subst ht
      simpa using hi h
    · simpa [ht] using h
  cases a <;> rw [step] <;> repeat' split
  all_goals first | exact h | refine hset _ _ fun h' => ?_
  all_goals grind [TaskImpl.fired, TaskImpl.finish, TaskImpl.stop_and_notify]

/-! ## Every run -/

theorem Ok.runs (h : Ok s) (n : Nat) (as : List (Action T)) : Ok (runs (step n) s as) := by
  induction as generalizing s with
  | nil => exact h
  | cons a as ih => exact ih (h.after n a)

theorem Ok.quiet (h : Ok s) (hr : (s.task t).cancel = .returned) (n : Nat) (as : List (Action T)) :
    (Lib.runs (step n) s as).executing.count t = 0 := by
  induction as generalizing s with
  | nil =>
    have hplaced := (h t).placed
    rw [(h t).returned hr] at hplaced
    exact hplaced.2.2
  | cons a as ih => exact ih (h.after n a) (returned_step hr n a)

theorem Ok.right (h : Ok s) (n : Nat) (t : T) : Right n s t := by
  have hi := h t
  have hplaced := hi.placed
  refine ⟨by grind, fun hr => h.quiet hr n, fun hw => ?_, fun hn ha => ?_⟩
  · have hstop := hi.stop.2 (.inl (by simp [hw]))
    cases hstate : (s.task t).state_ with
    | Timer =>
      rw [hstate] at hplaced
      obtain ⟨c, hc⟩ := Option.ne_none_iff_exists'.1 hplaced.1
      exact ⟨.timer t false, by cases c <;> simp [step, hc, TaskImpl.fired, hstop, TaskImpl.stop_and_notify]⟩
    | Queue => exact absurd hstate (hi.waiting hw)
    | Exec =>
      rw [hstate] at hplaced
      have hexec : t ∈ s.executing := by grind
      exact ⟨.ran t true, by simp [step, hexec, TaskImpl.finish, hstop, TaskImpl.stop_and_notify]⟩
    | Stopped => exact ⟨.cancelled t, by simp [step, hw, hstate]⟩
  · have hstop : (s.task t).state_ ≠ .Stopped := fun hs => by simpa [hn, ha] using hi.stop.1 (hi.stopped hs)
    grind

/-- From the creation of the tasks on. -/
theorem cancelled_task_never_runs (n : Nat) (as : List (Action T)) (t : T) : Right n (runs (step n) {} as) t := by
  refine Ok.right (Ok.runs (fun t => ?_) n as) n t
  constructor <;> simp

/-- Cancelled while its action runs. -/
example : ((runs (step 1) ({} : Pool Unit)
    [.timer () false, .take, .run (), .cancel (), .ran () true, .cancelled ()]).task ()).cancel = .returned := by decide

theorem busy_step {n : Nat} (h : s.taken.length + s.executing.length ≤ n) (a : Action T) :
    (step n s a).taken.length + (step n s a).executing.length ≤ n := by
  cases a <;> rw [step] <;> repeat' split
  all_goals grind

/-- No task is queued, taken or executed twice at once, and at most `n` workers are busy. The state of a task says
where it is: those that execute are those whose action runs, and one that was queued waits for a worker to run it. -/
theorem each_task_once (n : Nat) (as : List (Action T)) : let s := runs (step n) ({} : Pool T) as
    (s.queue_ ++ s.taken ++ s.executing).Nodup ∧ s.taken.length + s.executing.length ≤ n ∧
      ∀ t, (t ∈ s.executing ↔ (s.task t).state_ = .Exec) ∧ ((s.task t).state_ = .Queue → t ∈ s.queue_ ++ s.taken) := by
  have h : Ok (runs (step n) {} as) := Ok.runs (fun _ => by constructor <;> simp) n as
  refine ⟨nodup_iff_count_le_one.2 fun t => ?_, ?_, fun t => ?_⟩
  · have hplaced := (h t).placed
    rw [count_append, count_append]
    cases hstate : ((runs (step n) {} as).task t).state_ <;> rw [hstate] at hplaced <;> omega
  · clear h
    induction as using reverseRecOn with
    | nil => simp
    | append_singleton as a ih => simpa [runs_append] using busy_step ih a
  · have hplaced := (h t).placed
    cases hstate : ((runs (step n) {} as).task t).state_ <;> rw [hstate] at hplaced <;> grind

end VolumeDriver.PeriodicActionPool
