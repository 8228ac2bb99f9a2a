/-
The data store of a volume (`DataStoreNG`): the SCO that is written to, the location the next
cluster gets, the checksum of the SCO, and the rollover to the next SCO. Offsets have 16 bits and
SCO numbers 32; both wrap. A SCO is kept as the list of its clusters, a checksum as the clusters
that went into it. Creating a SCO may fail with a `TransientException`.
-/
import VolumeDriver.Types
import VolumeDriver.Lib.Triple
import Mathlib.Logic.Function.Basic

namespace VolumeDriver

open Lib

/-- What the calls of a volume throw: one of the exceptions of `Exn`, or one that they catch or
hand to the client. -/
inductive VolumeExn
  | exn (e : Exn)
  | transientException
  | invalidOperation (what : String)
  | insufficientResourcesException (what : String)
  deriving DecidableEq, Repr

/-- `D` is the type of a cluster's data. -/
structure DataStoreNG (D : Type) where
  currentClusterLoc_ : ClusterLocation := ⟨⟨1, 0, 0⟩, 0⟩
  sco_mult_ : Nat
  /-- `currentSCO_()` is not null. -/
  current_open : Bool := false
  currentCheckSum_ : List D := []
  /-- The clusters in the file of each SCO, by SCO number. -/
  scos : Nat → List D := fun _ => []
  /-- The SCOs handed to the backend. -/
  pushed : List Nat := []
  /-- How the next calls of `createSCO` end: `true` stands for a `TransientException`. -/
  createSCO_fails : List Bool := []

namespace DataStoreNG

variable {D : Type}

/-- Calls of the data store; a call that throws keeps its changes. -/
abbrev M (D : Type) := EStateM VolumeExn (DataStoreNG D)

/-- The number of the current SCO. -/
def number (d : DataStoreNG D) : Nat := d.currentClusterLoc_.sco.number

/-- The offset of the next cluster. -/
def offset (d : DataStoreNG D) : Nat := d.currentClusterLoc_.offset

variable (d : DataStoreNG D)

/-- A SCO without clusters is there for the current location. -/
def created : DataStoreNG D :=
  { d with
    currentCheckSum_ := []
    current_open := true
    scos := Function.update d.scos d.number []
    createSCO_fails := d.createSCO_fails.tail }

/-- There is no SCO for the current location. -/
def notCreated : DataStoreNG D :=
  { d with currentCheckSum_ := [], current_open := false, createSCO_fails := d.createSCO_fails.tail }

/-- Creates the SCO of the current location. -/
def updateCurrentSCO_ : M D Unit := do
  let d ← get
  if d.createSCO_fails.headD false then
    set d.notCreated
    throw .transientException
  else
    set d.created

/-- `VERIFY`. -/
def verify (p : Prop) [Decidable p] (what : String) : M D Unit :=
  if p then pure () else throw (.exn (.assertion what))

/-- The location after the current SCO: the next number, offset 0. -/
def nextSCO : DataStoreNG D :=
  { d with
    currentClusterLoc_ := ⟨⟨(d.number + 1) % 2 ^ 32, d.currentClusterLoc_.sco.cloneID, 0⟩, 0⟩
    current_open := false
    pushed := d.pushed ++ [d.number] }

/-- The default of the source's parameter: a `TransientException` is ignored, the next write tries
to create the SCO again. -/
def pushAndUpdateCurrentSCO_ : M D (Option (List D)) := do
  let d ← get
  verify (d.current_open = true) "currentSCO_() != 0"
  set d.nextSCO
  try
    updateCurrentSCO_
  catch
    | .transientException => pure ()
    | e => throw e
  pure (some d.currentCheckSum_)

/-- Hands the current SCO to the backend if it has clusters, and returns its checksum. -/
def finalizeCurrentSCO : M D (Option (List D)) := do
  let d ← get
  if d.offset ≠ 0 then pushAndUpdateCurrentSCO_ else pure none

/-- `pwrite` of whole clusters into a file of clusters. -/
def pwrite (file : List D) (off : Nat) (buf : List D) : List D := file.take off ++ (buf ++ file.drop (off + buf.length))

/-- The clusters go into the file behind each other, and the offset moves on. -/
def written (buf : List D) : DataStoreNG D :=
  { d with
    currentClusterLoc_ := { d.currentClusterLoc_ with offset := (d.offset + buf.length) % 2 ^ 16 }
    currentCheckSum_ := d.currentCheckSum_ ++ buf
    scos := Function.update d.scos d.number (pwrite (d.scos d.number) d.offset buf) }

/-- The locations of the next `n` clusters. -/
def locations (d : DataStoreNG D) (n : Nat) : List ClusterLocation :=
  (List.range n).map fun i => ⟨⟨d.number, 0, 0⟩, (d.offset + i) % 2 ^ 16⟩

/-- `writeClusters_`, with the locations it fills in. -/
def writeClusters (buf : List D) : M D (List ClusterLocation) := do
  if (← get).current_open = false then
    updateCurrentSCO_
  let d ← get
  set (d.written buf)
  pure (d.locations buf.length)

/-- Writes a cluster whose location has to be the current one. -/
def writeClusterToLocation (cluster : D) (loc : ClusterLocation) : M D Unit := do
  verify (loc.sco.cloneID = 0) "loc.cloneID() == 0"
  verify (loc.sco.version = 0) "loc.version() == 0"
  let d ← get
  if loc ≠ d.currentClusterLoc_ then
    throw (.exn (.ioException "got unexpected clusterlocation"))
  let locs ← writeClusters [cluster]
  verify (locs = [loc]) "dummy[0] == loc"

/-- The checksum of a SCO that has clusters. -/
def sync : Option (List D) := if d.offset > 0 then some d.currentCheckSum_ else none

/-- A 32-bit difference, widened to 64 bits. -/
def getRemainingSCOCapacity : Nat := (d.sco_mult_ + 2 ^ 32 - d.offset) % 2 ^ 32

/-- Sets the number of clusters of a SCO. -/
def setSCOMultiplier (sco_mult : Nat) : M D Unit := do
  verify (sco_mult ≠ 0) "sco_mult != SCOMultiplier(0)"
  modify fun d => { d with sco_mult_ := sco_mult }

@[simp] theorem number_written (buf : List D) : (d.written buf).number = d.number := rfl

/-- The state after an attempt to create the SCO of the current location. -/
def attempted : DataStoreNG D := if d.createSCO_fails.headD false then d.notCreated else d.created

theorem updateCurrentSCO_ok {d : DataStoreNG D} (h : d.createSCO_fails.headD false = false) :
    updateCurrentSCO_ d = .ok () d.created := by
  refine run_get_bind.trans ?_
  rw [if_neg (by rw [h]; exact Bool.false_ne_true)]
  rfl

theorem updateCurrentSCO_fails {d : DataStoreNG D} (h : d.createSCO_fails.headD false = true) :
    updateCurrentSCO_ d = .error .transientException d.notCreated := by
  refine run_get_bind.trans ?_
  rw [if_pos h]
  rfl

theorem finalizeCurrentSCO_empty {d : DataStoreNG D} (h : d.offset = 0) : finalizeCurrentSCO d = .ok none d := by
  refine run_get_bind.trans ?_
  rw [if_neg (not_not.mpr h)]
  rfl

theorem finalizeCurrentSCO_data {d : DataStoreNG D} (h : d.offset ≠ 0) (ho : d.current_open = true) :
    finalizeCurrentSCO d = .ok (some d.currentCheckSum_) d.nextSCO.attempted := by
  refine run_get_bind.trans ?_
  rw [if_pos h]
  refine run_get_bind.trans ?_
  refine (run_bind (show verify _ _ d = .ok () d by rw [verify, if_pos ho]; rfl)).trans ?_
  refine (run_bind (show (set d.nextSCO : M D _) d = .ok ⟨⟩ d.nextSCO from rfl)).trans ?_
  refine (run_bind (show _ = EStateM.Result.ok () d.nextSCO.attempted from ?_)).trans rfl
  by_cases hf : d.nextSCO.createSCO_fails.headD false = true
  · rw [run_tryCatch_error (updateCurrentSCO_fails hf)]
    simp only [attempted, if_pos hf]
    rfl
  · rw [run_tryCatch (updateCurrentSCO_ok (by simpa using hf))]
    simp only [attempted, if_neg hf]

/-- The state in which clusters are written: with a SCO for the current location. -/
def ready : DataStoreNG D := if d.current_open then d else d.created

/-- A step of the data store that keeps the current location and the multiplier. -/
structure SameLocation (d d' : DataStoreNG D) : Prop where
  loc : d'.currentClusterLoc_ = d.currentClusterLoc_
  mult : d'.sco_mult_ = d.sco_mult_

theorem sameLocation_attempted : SameLocation d d.attempted := by
  unfold attempted
  split <;> exact ⟨rfl, rfl⟩

theorem sameLocation_ready : SameLocation d d.ready := by
  unfold ready
  split <;> exact ⟨rfl, rfl⟩

theorem ready_open : d.ready.current_open = true := by
  unfold ready
  cases h : d.current_open with
  | true => exact h
  | false => rfl

/-- There is a SCO to write to, or it can be created. -/
abbrev CanWrite : Prop := d.current_open = true ∨ d.createSCO_fails.headD false = false

section
variable {d : DataStoreNG D} (buf : List D)

theorem writeClusters_ok (h : d.CanWrite) :
    writeClusters buf d = .ok (d.locations buf.length) (d.ready.written buf) := by
  refine run_get_bind.trans ?_
  unfold ready
  cases ho : d.current_open with
  | true => rfl
  | false =>
    have hc := h.resolve_left (by rw [ho]; exact Bool.false_ne_true)
    exact (run_bind (updateCurrentSCO_ok hc)).trans rfl

theorem writeClusters_fails (ho : d.current_open = false) (hc : d.createSCO_fails.headD false = true) :
    writeClusters buf d = .error .transientException d.notCreated := by
  refine run_get_bind.trans ?_
  rw [if_pos ho]
  exact run_bind_error (updateCurrentSCO_fails hc)

end

end DataStoreNG

end VolumeDriver
