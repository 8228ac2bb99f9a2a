/-
A volume and the node that takes its namespace over. The backend keeps an owner tag; requests with a
condition only take effect while the tag is the one that the volume recorded when it claimed the
namespace (`VolumeInterface::claim_namespace`). The volume's backend tasks (BackendTasks.cpp), the
callback of `WriteTLog` and the garbage collector's deletions are the sequences of requests they make.
-/
import VolumeDriver.Lib.Steps
import VolumeDriver.Types
import Mathlib.Logic.Function.Basic

namespace VolumeDriver.Fencing

open Lib List

/-! ## Requests to the backend -/

/-- The objects of the namespace. -/
inductive Object
  | sco (sco : SCO)
  | tlog (tlog : TLogId)
  | snapshots
  | volumeConfig
  | failOverCacheConfig
  deriving DecidableEq, Repr

/-- A write, or with no content a removal. -/
structure Request (C : Type) where
  object : Object
  content : Option C
  overwrite : Bool := true
  /-- The request carries the volume's `backend_write_condition`. -/
  conditional : Bool := true
  /-- The task goes on when the request has failed. -/
  continues : Bool := false

/-- The work that a volume has done on the backend. The contents are those at the time of the run. -/
inductive Task (C : Type)
  | WriteSCO (sco : SCO) (data : C) (overwrite : Bool)
  | WriteTLog (tlog : TLogId) (data : C) (snapshots : C)
  | WriteSnapshot (snapshots : C)
  | DeleteTLog (tlog : TLogId)
  | BlockDeleteTLogs (tlogs : List TLogId)
  | BlockDeleteSCOS (scos : List SCO)
  | DeleteSCO (sco : SCO)
  | writeConfigToBackend_ (config : C)
  | writeFailOverCacheConfigToBackend_ (config : C)
  | Garbage (object : Object)

variable {C : Type}

/-- The requests of a task. -/
def Task.run : Task C → List (Request C)
  | .WriteSCO sco data overwrite => [{ object := .sco sco, content := some data, overwrite := overwrite }]
  -- `tlogWrittenToBackendCallback` follows when the TLog has been written
  | .WriteTLog tlog data snapshots =>
    [{ object := .tlog tlog, content := some data },
      { object := .snapshots, content := some snapshots, conditional := false }]
  | .WriteSnapshot snapshots => [{ object := .snapshots, content := some snapshots }]
  | .DeleteTLog tlog => [{ object := .tlog tlog, content := none }]
  | .BlockDeleteTLogs tlogs => tlogs.map fun tlog => { object := .tlog tlog, content := none, continues := true }
  | .BlockDeleteSCOS scos => scos.map fun sco => { object := .sco sco, content := none, continues := true }
  | .DeleteSCO sco => [{ object := .sco sco, content := none }]
  | .writeConfigToBackend_ config => [{ object := .volumeConfig, content := some config }]
  | .writeFailOverCacheConfigToBackend_ config => [{ object := .failOverCacheConfig, content := some config }]
  -- `GarbageCollector`'s task has no volume to ask for a condition
  | .Garbage object => [{ object := object, content := none, conditional := false }]

/-! ## The namespace -/

/-- The namespace on the backend, and the requests that the tasks of the volume still have to make.
`claimed` records that another node has claimed the namespace since. -/
structure State (C : Type) where
  tag : Nat
  objects : Object → Option C
  tasks : List (List (Request C)) := []
  claimed : Bool := false

/-- What happens. -/
inductive Action (C : Type)
  /-- A thread starts a task. A task that is retried starts again. -/
  | start (task : Task C)
  /-- The task at place `i` makes its next request; `fails` if the backend cannot serve it. -/
  | request (i : Nat) (fails : Bool)
  /-- Another node claims the namespace with its own tag. -/
  | claim_namespace (tag : Nat)
  /-- The other node changes an object. -/
  | newOwner (object : Object) (content : Option C)

/-- The request takes effect. -/
def State.accepts (own : Nat) (s : State C) (r : Request C) : Bool :=
  (!r.conditional || s.tag == own) && (r.overwrite || (s.objects r.object).isNone)

/-- One step. `own` is the tag that the volume recorded. -/
def step (own : Nat) (s : State C) : Action C → State C
  | .start task => { s with tasks := s.tasks ++ [task.run] }
  | .request i fails =>
    match s.tasks[i]? with
    | some (r :: rest) =>
      if !fails && s.accepts own r then
        { s with objects := Function.update s.objects r.object r.content, tasks := s.tasks.set i rest }
      else { s with tasks := s.tasks.set i (if r.continues then rest else []) }
    | _ => s
  | .claim_namespace tag => { s with tag := tag, claimed := true }
  | .newOwner object content => { s with objects := Function.update s.objects object content }

/-- The volume's own steps. -/
def Action.ofVolume : Action C → Bool
  | .start _ | .request _ _ => true
  | .claim_namespace _ | .newOwner _ _ => false

/-- Once the namespace has been claimed, no step of the volume changes an object. -/
def FencedOff (own : Nat) (s : State C) (a : Action C) : Prop :=
  a.ofVolume = true → s.claimed = true → (step own s a).objects = s.objects

/-- The next request of a task carries the condition. -/
def asksOwner (requests : List (Request C)) : Prop := ∀ r ∈ requests.head?, r.conditional = true

/-- The other node has a tag of its own. It claims the namespace while no TLog is between being written
and being recorded in the snapshots file and no garbage is waiting; no garbage is collected later. -/
def Undisturbed (own : Nat) (s : State C) : Action C → Prop
  | .claim_namespace tag => tag ≠ own ∧ ∀ requests ∈ s.tasks, asksOwner requests
  | .start task => s.claimed = true → ∀ object, task ≠ .Garbage object
  | _ => True

/-! ## Tasks that were fenced off -/

/-- Every request that a task can still make when none takes effect carries the condition. -/
def Guarded : List (Request C) → Prop
  | [] => True
  | r :: rest => r.conditional = true ∧ (r.continues = true → Guarded rest)

theorem Guarded.of_forall : ∀ {requests : List (Request C)}, (∀ r ∈ requests, r.conditional = true) → Guarded requests
  | [], _ => trivial
  | r :: _, h => ⟨h r (mem_cons_self ..), fun _ => Guarded.of_forall fun x hx => h x (mem_cons_of_mem r hx)⟩

/-- A task makes requests without the condition only after one with it that took effect. -/
def Orderly : List (Request C) → Prop
  | [] => True
  | r :: rest => (r.conditional = true → Guarded (r :: rest)) ∧ Orderly rest

theorem Orderly.of_forall : ∀ {requests : List (Request C)}, (∀ r ∈ requests, r.conditional = true) → Orderly requests
  | [], _ => trivial
  | r :: _, h => ⟨fun _ => Guarded.of_forall h, Orderly.of_forall fun x hx => h x (mem_cons_of_mem r hx)⟩

theorem Orderly.guarded {requests : List (Request C)} (h : Orderly requests) (hasks : asksOwner requests) :
    Guarded requests := by
  cases requests with
  | nil => trivial
  | cons r rest => exact h.1 (hasks r rfl)

theorem Task.run_orderly (task : Task C) : Orderly task.run := by
  cases task with
  | WriteTLog tlog data snapshots => exact ⟨fun _ => ⟨rfl, nofun⟩, nofun, trivial⟩
  | Garbage object => exact ⟨nofun, trivial⟩
  | BlockDeleteTLogs tlogs =>
    refine Orderly.of_forall fun r hr => ?_
    obtain ⟨tlog, -, rfl⟩ := mem_map.mp hr
    rfl
  | BlockDeleteSCOS scos =>
    refine Orderly.of_forall fun r hr => ?_
    obtain ⟨sco, -, rfl⟩ := mem_map.mp hr
    rfl
  | _ => exact ⟨fun _ => ⟨rfl, nofun⟩, trivial⟩

theorem Task.run_asksOwner (task : Task C) (h : ∀ object, task ≠ .Garbage object) : asksOwner task.run := by
  intro r hr
  cases task with
  | Garbage object => exact absurd rfl (h object)
  | BlockDeleteTLogs tlogs =>
    obtain ⟨tlog, -, rfl⟩ := mem_map.mp (mem_of_mem_head? hr)
    rfl
  | BlockDeleteSCOS scos =>
    obtain ⟨sco, -, rfl⟩ := mem_map.mp (mem_of_mem_head? hr)
    rfl
  | _ =>
    obtain rfl := Option.some.inj hr
    rfl

/-! ## Every run -/

/-- All tasks are orderly, and after the claim their next requests are refused. -/
structure Inv (own : Nat) (s : State C) : Prop where
  orderly : ∀ requests ∈ s.tasks, Orderly requests
  fenced : s.claimed = true → s.tag ≠ own ∧ ∀ requests ∈ s.tasks, Guarded requests

variable {own : Nat} {s : State C}

theorem Inv.start (h : Inv own s) (task : Task C) (hok : Undisturbed own s (.start task)) :
    Inv own (step own s (.start task)) := by
  have horderly := task.run_orderly
  constructor
  · intro requests hmem
    rcases mem_append.mp hmem with hmem | hmem
    · exact h.orderly requests hmem
    · rw [mem_singleton.mp hmem]
      exact horderly
  · intro hclaimed
    obtain ⟨htag, hguarded⟩ := h.fenced hclaimed
    refine ⟨htag, fun requests hmem => ?_⟩
    rcases mem_append.mp hmem with hmem | hmem
    · exact hguarded requests hmem
    · rw [mem_singleton.mp hmem]
      exact horderly.guarded (task.run_asksOwner (hok hclaimed))

theorem mem_set_tasks {P : List (Request C) → Prop} {i : Nat} {left : List (Request C)}
    (h : ∀ requests ∈ s.tasks, P requests) (hleft : P left) : ∀ requests ∈ s.tasks.set i left, P requests := by
  intro requests hmem
  rcases mem_or_eq_of_mem_set hmem with hmem | rfl
  · exact h requests hmem
  · exact hleft

theorem Inv.request (h : Inv own s) (i : Nat) (fails : Bool) :
    FencedOff own s (.request i fails) ∧ Inv own (step own s (.request i fails)) := by
  unfold FencedOff
  simp only [step]
  split
  next r rest hget =>
    have hmem : r :: rest ∈ s.tasks := mem_of_getElem? hget
    have horderly : Orderly rest := (h.orderly _ hmem).2
    split
    next hok =>
      -- a request that takes effect was made before the claim
      have hunclaimed : ¬ s.claimed = true := by
        intro hclaimed
        obtain ⟨htag, hguarded⟩ := h.fenced hclaimed
        have hcond := (hguarded _ hmem).1
        simp [State.accepts, hcond, htag] at hok
      refine ⟨fun _ hclaimed => absurd hclaimed hunclaimed, mem_set_tasks h.orderly horderly, ?_⟩
      exact fun hclaimed => absurd hclaimed hunclaimed
    next hrefused =>
      refine ⟨fun _ _ => rfl, mem_set_tasks h.orderly ?_, fun hclaimed => ?_⟩
      · split
        · exact horderly
        · trivial
      · obtain ⟨htag, hguarded⟩ := h.fenced hclaimed
        refine ⟨htag, mem_set_tasks hguarded ?_⟩
        split
        next hcontinues => exact (hguarded _ hmem).2 hcontinues
        · trivial
  · exact ⟨fun _ _ => rfl, h⟩

theorem step_inv (s : State C) (a : Action C) (h : Inv own s) (hok : Undisturbed own s a) :
    FencedOff own s a ∧ Inv own (step own s a) := by
  cases a with
  | start task => exact ⟨fun _ _ => rfl, h.start task hok⟩
  | request i fails => exact h.request i fails
  | claim_namespace tag =>
    obtain ⟨htag, hasks⟩ := hok
    refine ⟨nofun, h.orderly, fun _ => ⟨htag, fun requests hmem => ?_⟩⟩
    exact (h.orderly requests hmem).guarded (hasks requests hmem)
  | newOwner object content => exact ⟨nofun, h.orderly, h.fenced⟩

/-- The old owner is fenced off in every run in which the claim meets neither a TLog that has yet to be
recorded in the snapshots file nor garbage. -/
theorem fenced_off (own : Nat) (objects : Object → Option C) (as : List (Action C))
    (hok : Each (step own) (Undisturbed own) { tag := own, objects } as) :
    Each (step own) (FencedOff own) { tag := own, objects } as :=
  each_imp (Inv own) step_inv ⟨nofun, nofun⟩ hok

/-! ## Claims at the right and at the wrong time -/

/-- A TLog and the snapshots file are written, then another node claims the namespace; the next TLog
is refused. -/
def handover : List (Action Nat) :=
  [.start (.WriteTLog 1 10 100), .request 0 false, .request 0 false, .claim_namespace 2,
    .start (.WriteTLog 2 20 200), .request 1 false, .request 1 false]

theorem fenced_off_handover :
    Each (step 1) (Undisturbed 1) { tag := 1, objects := fun _ => none } handover ∧
      Each (step 1) (FencedOff 1) { tag := 1, objects := fun _ => none } handover := by
  have hok : Each (step 1) (Undisturbed 1) { tag := 1, objects := fun _ => none } handover := by
    refine ⟨nofun, trivial, trivial, ⟨by decide, ?_⟩, fun _ => nofun, trivial, trivial, trivial⟩
    intro requests hmem
    obtain rfl := mem_singleton.mp hmem
    exact nofun
  exact ⟨hok, fenced_off 1 _ handover hok⟩

/-- The namespace is claimed, and the new owner writes its snapshots file, after a TLog of the old owner
has been written and before the callback has recorded it. -/
def lateCallback : List (Action Nat) :=
  [.start (.WriteTLog 1 10 100), .request 0 false, .claim_namespace 2, .newOwner .snapshots (some 300),
    .request 0 false]

/-- The garbage of a scrub result is collected after the claim. -/
def lateGarbage : List (Action Nat) :=
  [.claim_namespace 2, .newOwner (.sco ⟨1, 0, 1⟩) (some 30), .start (.Garbage (.sco ⟨1, 0, 1⟩)), .request 0 false]

/-- The old owner overwrites the snapshots file of the new one, and its garbage collector deletes an
object of the new owner. -/
theorem old_owner_overwrites :
    (runs (step 1) { tag := 1, objects := fun _ => none } lateCallback).objects .snapshots = some 100 ∧
      ¬ Each (step 1) (FencedOff 1) { tag := 1, objects := fun _ => none } lateCallback ∧
      (runs (step 1) { tag := 1, objects := fun _ => none } lateGarbage).objects (.sco ⟨1, 0, 1⟩) = none ∧
      ¬ Each (step 1) (FencedOff 1) { tag := 1, objects := fun _ => none } lateGarbage := by
  refine ⟨by decide, ?_, by decide, ?_⟩
  · rintro ⟨-, -, -, -, hfenced, -⟩
    have heq := congrFun (hfenced rfl rfl) .snapshots
    revert heq
    decide
  · rintro ⟨-, -, -, hfenced, -⟩
    have heq := congrFun (hfenced rfl rfl) (.sco ⟨1, 0, 1⟩)
    revert heq
    decide

end VolumeDriver.Fencing
