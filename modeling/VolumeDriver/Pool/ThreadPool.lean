/-
The task pool (ThreadPool.h): a queue of tasks for every producer, the threads that take tasks from
the queues in turn, and what happens to a task that failed. A task may be a barrier.
-/
import Mathlib.Algebra.Group.Nat.Defs
import VolumeDriver.Lib.Steps
import Mathlib.Data.List.Sort
import Mathlib.Data.List.ReduceOption
import Mathlib.Logic.Function.Basic

namespace VolumeDriver.Pool

/-! ## Tasks and their queue -/

/-- The two traits of a pool that decide about the order of tasks. -/
structure Traits where
  requeue_before_first_barrier_on_error : Bool
  may_reorder : Bool
  deriving DecidableEq, Repr

/-- A task. `id` is its place among the tasks added to the pool; `body` is what its `run` does. -/
structure Task (T B : Type) where
  id : Nat
  producer : T
  barrier : Bool
  body : B
  deriving DecidableEq, Repr

/-- The queue of a producer. `w_` counts the tasks that are being processed. -/
structure Queue (T B : Type) where
  tasks : List (Task T B) := []
  w_ : Nat := 0
  deriving DecidableEq, Repr

namespace Queue

variable {T B : Type}

variable (q : Queue T B)

/-- One more task is being processed; the count is 32 bits wide. -/
def addW : Queue T B := { q with w_ := (q.w_ + 1) % 2 ^ 32 }

/-- One fewer. -/
def removeW : Queue T B := { q with w_ := if q.w_ = 0 then 2 ^ 32 - 1 else q.w_ - 1 }

/-- A new task. -/
def push_back (t : Task T B) : Queue T B := { q with tasks := q.tasks ++ [t] }

/-- A task comes first. -/
def push_front (t : Task T B) : Queue T B := { q with tasks := t :: q.tasks }

/-- The front task goes. -/
def pop_front : Queue T B := { q with tasks := q.tasks.tail }

@[simp] theorem addW_tasks : q.addW.tasks = q.tasks := rfl

@[simp] theorem removeW_tasks : q.removeW.tasks = q.tasks := rfl

@[simp] theorem pop_front_tasks : q.pop_front.tasks = q.tasks.tail := rfl

/-- The first runnable task that no barrier precedes, with what is before and behind it. -/
def firstRunnable (runnable : Task T B → Bool) : List (Task T B) → Option (List (Task T B) × Task T B × List (Task T B))
  | [] => none
  | t :: ts =>
    if t.barrier then none
    else if runnable t then some ([], t, ts)
    else (firstRunnable runnable ts).map fun (pre, x, post) => (t :: pre, x, post)

/-- Whether the front task may be taken. With `may_reorder` a task is first moved to the front. -/
def active (traits : Traits) (runnable : Task T B → Bool) (q : Queue T B) : Bool × Queue T B :=
  match q.tasks with
  | [] => (false, q)
  | t :: ts =>
    if t.barrier && q.w_ != 0 then (false, q)
    else if traits.may_reorder then
      -- the loop passes the front task whether or not it is a barrier
      if runnable t then (true, q)
      else match firstRunnable runnable ts with
        | none => (false, q)
        | some (pre, x, post) => (true, { q with tasks := x :: (t :: pre ++ post) })
    else (runnable t, q)

/-- The queue without and from its first barrier on. -/
def splitAtBarrier : List (Task T B) → List (Task T B) × List (Task T B)
  | [] => ([], [])
  | t :: ts =>
    if t.barrier then ([], t :: ts)
    else ((t :: (splitAtBarrier ts).1), (splitAtBarrier ts).2)

/-- Where `taskNok` puts a failed task. -/
def requeue (traits : Traits) (t : Task T B) (q : Queue T B) : Queue T B :=
  if !traits.requeue_before_first_barrier_on_error || t.barrier then q.push_front t
  else { q with tasks := (splitAtBarrier q.tasks).1 ++ t :: (splitAtBarrier q.tasks).2 }

end Queue

/-! ## The pool -/

/-- A pool: the keys of `taskQueues_` in the map's order and the queue of each, the iterator that
says which queue is asked first, the task of each thread, and the error counts of the tasks. What was
added and what was completed is recorded for the statements. -/
structure ThreadPool (T B : Type) where
  keys : List T := []
  taskQueues_ : T → Queue T B := fun _ => {}
  queueIt_ : Nat := 0
  currentTasks_ : List (Option (Task T B))
  errors_ : Nat → Nat := fun _ => 0
  added : List (Task T B) := []
  completed : List (Task T B) := []

namespace ThreadPool

variable {T B : Type} [LinearOrder T]

/-- A pool with `num_threads` threads, all of them without a task. -/
def init (num_threads : UInt32) : ThreadPool T B := { currentTasks_ := List.replicate num_threads.toNat none }

/-- The pool with another queue for a producer. -/
def setQueue (p : T) (q : Queue T B) (s : ThreadPool T B) : ThreadPool T B :=
  { s with taskQueues_ := Function.update s.taskQueues_ p q }

/-- A producer adds a task. -/
def addTask (producer : T) (barrier : Bool) (body : B) (s : ThreadPool T B) : ThreadPool T B :=
  let t : Task T B := ⟨s.added.length, producer, barrier, body⟩
  let s' := { (s.setQueue producer ((s.taskQueues_ producer).push_back t)) with added := s.added ++ [t] }
  if producer ∈ s.keys then s'
  else { s' with keys := s.keys.orderedInsert (· ≤ ·) producer, queueIt_ := 0 }

/-- `elapsed` says of which tasks the back-off time is over. -/
def runnable (s : ThreadPool T B) (elapsed : Task T B → Bool) (t : Task T B) : Bool :=
  s.errors_ t.id == 0 || elapsed t

variable (traits : Traits)

/-- `active` of the queue of `p`. -/
def activeAt (elapsed : Task T B → Bool) (p : T) (s : ThreadPool T B) : Bool × ThreadPool T B :=
  let r := (s.taskQueues_ p).active traits (s.runnable elapsed)
  (r.1, s.setQueue p r.2)

/-- The loop of `getTaskInt`: the queues behind `queueIt_`, up to the first that is active; `p0` when
the iterator comes round. `k` counts the calls of `active`, whose answers may differ. -/
def findQueue (traits : Traits) (elapsed : Nat → Task T B → Bool) (p0 : T) :
    Nat → List T → ThreadPool T B → T × Nat × ThreadPool T B
  | k, [], s => (p0, k, s)
  | k, p :: ps, s =>
    match s.activeAt traits (elapsed k) p with
    | (true, s') => (p, k + 1, s')
    | (false, s') => findQueue traits elapsed p0 (k + 1) ps s'

/-- The thread takes the front task of the queue of `p`. -/
def take (thread : Nat) (p : T) (s : ThreadPool T B) : Option (Task T B) × ThreadPool T B :=
  match (s.taskQueues_ p).tasks with
  | [] => (none, s)
  | t :: _ =>
    (some t, { (s.setQueue p (s.taskQueues_ p).pop_front.addW) with
      queueIt_ := if s.queueIt_ + 1 = s.keys.length then 0 else s.queueIt_ + 1
      currentTasks_ := s.currentTasks_.set thread (some t) })

/-- The queue that `getTaskInt` ends its search with, and how often `active` was called. -/
def searchQueue (elapsed : Nat → Task T B → Bool) (p0 : T) (ps : List T) (s : ThreadPool T B) :
    T × Nat × ThreadPool T B :=
  match s.activeAt traits (elapsed 0) p0 with
  | (true, s') => (p0, 1, s')
  | (false, s') => findQueue traits elapsed p0 1 ps s'

/-- A thread asks for a task. -/
def getTaskInt (elapsed : Nat → Task T B → Bool) (thread : Nat) (s : ThreadPool T B) :
    Option (Task T B) × ThreadPool T B :=
  match s.keys.rotate s.queueIt_ with
  | [] => (none, s)
  | p0 :: ps =>
    match searchQueue traits elapsed p0 ps s with
    | (p, k, s') =>
      match s'.activeAt traits (elapsed k) p with
      | (false, s'') => (none, s'')
      | (true, s'') => s''.take thread p

/-- The task is deleted; when its queue is gone nothing else happens. -/
def taskOk (thread : Nat) (t : Task T B) (s : ThreadPool T B) : ThreadPool T B :=
  let s' := { s with currentTasks_ := s.currentTasks_.set thread none, completed := s.completed ++ [t] }
  if t.producer ∈ s.keys then s'.setQueue t.producer (s.taskQueues_ t.producer).removeW else s'

/-- The task goes back to its queue; it is deleted when the queue is gone. -/
def taskNok (traits : Traits) (thread : Nat) (t : Task T B) (s : ThreadPool T B) : ThreadPool T B :=
  let s' := { s with
    currentTasks_ := s.currentTasks_.set thread none
    errors_ := Function.update s.errors_ t.id ((s.errors_ t.id + 1) % 2 ^ 32) }
  if t.producer ∈ s.keys then s'.setQueue t.producer ((s.taskQueues_ t.producer).requeue traits t).removeW else s'

/-! ## Runs -/

/-- What producers and threads do. A thread calls `getTaskInt` until it has a task, runs it, and
reports how that went. -/
inductive Action (T B : Type) where
  | addTask (producer : T) (barrier : Bool) (body : B)
  | getTask (thread : Nat) (elapsed : Nat → Task T B → Bool)
  | taskOk (thread : Nat)
  | taskNok (thread : Nat)

/-- The task that a thread takes in this action. -/
def taken (s : ThreadPool T B) : Action T B → Option (Task T B)
  | .getTask thread elapsed =>
    match s.currentTasks_[thread]? with
    | some none => (s.getTaskInt traits elapsed thread).1
    | _ => none
  | _ => none

/-- One action. A thread without the task that its action needs leaves the pool as it is. -/
def step (s : ThreadPool T B) : Action T B → ThreadPool T B
  | .addTask producer barrier body => s.addTask producer barrier body
  | .getTask thread elapsed =>
    match s.currentTasks_[thread]? with
    | some none => (s.getTaskInt traits elapsed thread).2
    | _ => s
  | .taskOk thread =>
    match s.currentTasks_[thread]? with
    | some (some t) => s.taskOk thread t
    | _ => s
  | .taskNok thread =>
    match s.currentTasks_[thread]? with
    | some (some t) => s.taskNok traits thread t
    | _ => s

/-- The tasks that the threads are running. -/
def running (s : ThreadPool T B) : List (Task T B) := s.currentTasks_.reduceOption

end ThreadPool

end VolumeDriver.Pool
