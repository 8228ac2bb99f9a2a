/-
The cache a DTL server keeps for one namespace (`failovercache::Backend` over a `MemoryBackend`):
the entries of each SCO, the SCOs in the order in which they were opened, the offset the next
entry must have, and the flag by which a client that registers again asks for its entries first.
-/
import VolumeDriver.Types
import VolumeDriver.Lib.Bytes
import VolumeDriver.Lib.Triple

namespace VolumeDriver

open Lib

/-- One cluster as the server stores it. -/
structure CacheEntry where
  cli_ : ClusterLocation
  lba_ : Nat
  data : Bytes
  deriving DecidableEq, Repr

/-- `scosdeque_` and the map from SCOs to their entries, as one list: both are changed together. -/
structure Backend where
  scos : List (SCO × List CacheEntry) := []
  /-- `current_` is set: the last SCO is open for appending. -/
  current_ : Bool := false
  check_offset_ : Nat := 0
  first_command_must_be_getEntries : Bool := false
  deriving DecidableEq, Repr

namespace Backend

/-- A method that changes the cache and may throw. -/
abbrev M := EStateM Exn Backend

/-- `VERIFY`. -/
def verify (p : Prop) [Decidable p] (what : String) : M Unit :=
  if p then pure () else throw (.assertion what)

variable (b : Backend)

/-- The SCOs, oldest first. -/
def scosdeque_ : List SCO := b.scos.map (·.1)

/-- All entries, in the order in which `getEntries` streams them. -/
def entries : List CacheEntry := b.scos.flatMap (·.2)

/-- Entries that are added before `getEntries` replace what is there. -/
def setFirstCommandMustBeGetEntries : Backend := { b with first_command_must_be_getEntries := true }

/-- Removes all SCOs. -/
def clear_cache_ : Backend := { b with scos := [], current_ := false }

/-- Removes all SCOs, also for a client that registered again. -/
def clear : Backend := { b.clear_cache_ with first_command_must_be_getEntries := false }

/-- The SCOs at the front whose number is at most `sconum` go. -/
def popUpTo (sconum : Nat) (b : Backend) : Backend := { b with scos := b.scos.dropWhile fun p => p.1.number ≤ sconum }

/-- Removes the SCOs up to the given one. -/
def removeUpTo (sconame : SCO) : M Unit := do
  verify (sconame.version = 0) "sconame.version() == 0"
  verify (sconame.cloneID = 0) "sconame.cloneID() == 0"
  modify fun b =>
    match b.scosdeque_.head? with
    | none => b
    | some oldest =>
      if sconame.number < oldest.number then b
      else popUpTo sconame.number (if b.scosdeque_.getLast? = some sconame then { b with current_ := false } else b)

/-- `MemoryBackend::open`, and the new SCO at the end of the deque. -/
def openSCO (sco : SCO) (offset : Nat) : M Unit := do
  let b ← get
  verify (sco ∉ b.scosdeque_) "res.second"
  set { b with scos := b.scos ++ [(sco, [])], current_ := true, check_offset_ := offset }

/-- Entries are appended to those of the last SCO. -/
def append (es : List CacheEntry) : List (SCO × List CacheEntry) → List (SCO × List CacheEntry)
  | [] => []
  | [(sco, old)] => [(sco, old ++ es)]
  | p :: q :: ps => p :: append es (q :: ps)

/-- Adds entries to the open SCO. -/
def add_entries (es : List CacheEntry) : M Unit := do
  let b ← get
  verify (b.current_ = true) "current_"
  set { b with scos := append es b.scos }

/-- The SCO the entries belong to is the last one from now on. -/
def selectSCO (loc : ClusterLocation) : M Unit := do
  let b ← get
  if b.scosdeque_.getLast? ≠ some loc.sco then
    modify fun b => { b with current_ := false }
    openSCO loc.sco loc.offset
  else
    verify (loc.offset = b.check_offset_) "offset == check_offset_"

/-- Adds entries of one SCO, whose offsets follow those it has. -/
def addEntries : List CacheEntry → M Unit
  | [] => throw (.assertion "not entries.empty()")
  | e :: es => do
    verify (e.cli_.sco = ((e :: es).getLast (List.cons_ne_nil e es)).cli_.sco) "sco == entries.back().cli_.sco()"
    -- a client that registered again and writes before it reads gives up what the cache holds
    modify fun b => if b.first_command_must_be_getEntries then b.clear else b
    selectSCO e.cli_
    add_entries (e :: es)
    modify fun b => { b with check_offset_ := b.check_offset_ + (es.length + 1) }

/-- The oldest and the youngest SCO, two null ones if there are none. -/
def getSCORange : SCO × SCO :=
  (b.scosdeque_.head?.getD ⟨0, 0, 0⟩, b.scosdeque_.getLast?.getD ⟨0, 0, 0⟩)

section
variable {m : Type → Type} [Monad m] (flush : m Unit) (f : CacheEntry → m Unit)

/-- `MemoryBackend::get_entries`, `FileBackend::get_entries`: each entry of a SCO is handed to `f`. -/
def get_entries (es : List CacheEntry) : m Unit := es.forM f

/-- Streams all entries. When it returns it also resets `first_command_must_be_getEntries`. -/
def getEntries (b : Backend) : m Unit := do
  flush
  b.scos.forM fun p => get_entries f p.2

/-- A SCO that is not there has no entries. -/
def getSCO (b : Backend) (sconame : SCO) : m Unit :=
  match b.scos.find? (·.1 = sconame) with
  | none => pure ()
  | some p => do
    flush
    get_entries f p.2

end

end Backend

end VolumeDriver
