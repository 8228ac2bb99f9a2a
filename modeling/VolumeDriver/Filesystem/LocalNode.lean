/-
A volume whose snapshots are cloned on any nodes while its owner deletes snapshots or rolls back
(LocalNode.cpp). `create_clone` registers the clone and then looks for the snapshot in the parent's
snapshots file on the backend; `clone_to_existing_volume` does so first and registers last. The owner reads
the registry, checks the descendants it has read and only then drops snapshots, and the new snapshots file
reaches the backend later. The locks are on one node and one volume each and keep none of these steps apart.
-/
import VolumeDriver.Filesystem.ObjectRegistry

namespace VolumeDriver.LocalNode

open Lib ObjectRegistry

/-! ## The parties -/

/-- The two ways to make a clone. -/
inductive Kind
  | create_clone
  | clone_to_existing_volume
  deriving DecidableEq, Repr

/-- A clone of a snapshot of the volume. -/
structure Clone where
  kind : Kind
  clone_id : ObjectId
  snap : SnapshotName
  deriving DecidableEq, Repr

/-- How far the creation of a clone is. -/
inductive Creation
  | idle
  /-- `create_clone` has registered the clone. -/
  | started (c : Clone)
  /-- `VolManager::createClone` has found the snapshot in the snapshots file. -/
  | found (c : Clone)
  /-- `clone_to_existing_volume` has created the clone, which is not registered yet. -/
  | created (c : Clone)
  /-- `create_clone` has failed and the clone is still registered. -/
  | failing (c : Clone)
  | failed (c : Clone)
  /-- The creation has returned, and the clone is registered. -/
  | returned (c : Clone)
  /-- The clone has been unregistered since. -/
  | unregistered (c : Clone)
  deriving DecidableEq, Repr

/-- How far a removal of snapshots is; `read` is the copy of the parent's descendants it has read. -/
inductive Removal
  | idle
  | delete_snapshot (snap : SnapshotName) (read : Descendants)
  | rollback_volume (snap : SnapshotName) (read : Descendants)
  /-- The younger snapshots have been listed. -/
  | rolling_back (snap : SnapshotName) (read : Descendants) (doomed : List SnapshotName)
  deriving DecidableEq, Repr

/-- The parent, what the backend has of it, and who is at work. -/
structure State where
  /-- The descendants in the parent's registration. -/
  descendants : Descendants
  /-- The parent's snapshots, oldest first. -/
  snapshots : List SnapshotName
  /-- The snapshots in the snapshots file on the backend. -/
  file : List SnapshotName
  creations : Nat → Creation := fun _ => .idle
  removals : Nat → Removal := fun _ => .idle

namespace State

/-- Sets how far a creation is. -/
def withCreation (s : State) (i : Nat) (c : Creation) : State := { s with creations := Function.update s.creations i c }

/-- Sets how far a removal is. -/
def withRemoval (s : State) (r : Nat) (x : Removal) : State := { s with removals := Function.update s.removals r x }

end State

/-! ## Creating a clone -/

variable (s : State)

/-- The clone is registered with the parent, unless it is so already. -/
def register (i : Nat) (c : Clone) (next : Creation) : State :=
  if (s.descendants.find c.clone_id).isSome then s.withCreation i (.failed c)
  else { s.withCreation i next with descendants := s.descendants.insert c.clone_id (some c.snap) }

/-- `create_clone` registers first. That `clone_to_existing_volume` destroys its target is left out. -/
def start (i : Nat) (c : Clone) : State :=
  match c.kind with
  | .create_clone => register s i c (.started c)
  | .clone_to_existing_volume => s.withCreation i (.started c)

/-- An exception: `create_clone` unregisters the clone. -/
def throws (i : Nat) (c : Clone) : State :=
  match c.kind with
  | .create_clone => s.withCreation i (.failing c)
  | .clone_to_existing_volume => s.withCreation i (.failed c)

/-- `api::createClone` has returned. -/
def afterCreate (c : Clone) : Creation :=
  match c.kind with
  | .create_clone => .returned c
  | .clone_to_existing_volume => .created c

/-- The next step of a creation. The snapshots file is read by `VolManager::createClone` and once more when
the clone is built (`VolumeFactory::createClone`). -/
def create (i : Nat) : State :=
  match s.creations i with
  | .started c => if c.snap ∈ s.file then s.withCreation i (.found c) else throws s i c
  | .found c => if c.snap ∈ s.file then s.withCreation i (afterCreate c) else throws s i c
  | .created c => register s i c (.returned c)
  | .failing c => { s.withCreation i (.failed c) with descendants := s.descendants.erase c.clone_id }
  | _ => s

/-- The step fails for another reason. -/
def createFails (i : Nat) : State :=
  match s.creations i with
  | .started c => throws s i c
  | .found c => throws s i c
  | .created c => s.withCreation i (.failed c)
  | _ => s

/-- The clone is unregistered. -/
def unregister (i : Nat) : State :=
  match s.creations i with
  | .returned c => { s.withCreation i (.unregistered c) with descendants := s.descendants.erase c.clone_id }
  | _ => s

/-! ## Removing snapshots -/

/-- The snapshots that a rollback drops: those behind `snap`. -/
def younger (snap : SnapshotName) : List SnapshotName → List SnapshotName
  | [] => []
  | s :: rest => if s = snap then rest.filter (· ≠ snap) else younger snap rest

/-- The snapshots that a rollback keeps. -/
def upTo (snap : SnapshotName) : List SnapshotName → List SnapshotName
  | [] => []
  | s :: rest => if s = snap then [s] else s :: upTo snap rest

/-- The next step of a removal. The check is made on the descendants that were read. `fails` if the volume
refuses to drop the snapshots. -/
def remove (s : State) (r : Nat) (fails : Bool) : State :=
  match s.removals r with
  | .idle => s
  | .delete_snapshot snap read =>
    if (read.any fun e => e.2 = some snap) ∨ fails ∨ snap ∉ s.snapshots then s.withRemoval r .idle
    else { s.withRemoval r .idle with snapshots := s.snapshots.erase snap }
  | .rollback_volume snap read => s.withRemoval r (.rolling_back snap read (younger snap s.snapshots))
  | .rolling_back snap read doomed =>
    if (read.any fun e => e.2.any (· ∈ doomed)) ∨ fails ∨ snap ∉ s.snapshots then s.withRemoval r .idle
    else { s.withRemoval r .idle with snapshots := upTo snap s.snapshots }

/-! ## Runs -/

/-- A step of one of the parties. -/
inductive Action
  | start (i : Nat) (c : Clone)
  | create (i : Nat)
  | createFails (i : Nat)
  | unregister (i : Nat)
  /-- The owner reads the registry, to delete a snapshot. -/
  | delete_snapshot (r : Nat) (snap : SnapshotName)
  /-- The owner reads the registry, to roll back. -/
  | rollback_volume (r : Nat) (snap : SnapshotName)
  | remove (r : Nat) (fails : Bool)
  | create_snapshot (snap : SnapshotName)
  /-- The snapshots file is written to the backend. -/
  | writeSnapshot
  deriving DecidableEq, Repr

/-- The state after a step. -/
def step : Action → State
  | .start i c =>
    match s.creations i with
    | .idle => start s i c
    | _ => s
  | .create i => create s i
  | .createFails i => createFails s i
  | .unregister i => unregister s i
  | .delete_snapshot r snap =>
    match s.removals r with
    | .idle => s.withRemoval r (.delete_snapshot snap s.descendants)
    | _ => s
  | .rollback_volume r snap =>
    match s.removals r with
    | .idle => s.withRemoval r (.rollback_volume snap s.descendants)
    | _ => s
  | .remove r fails => remove s r fails
  | .create_snapshot snap => if snap ∈ s.snapshots then s else { s with snapshots := s.snapshots ++ [snap] }
  | .writeSnapshot => { s with file := s.snapshots }

end VolumeDriver.LocalNode
