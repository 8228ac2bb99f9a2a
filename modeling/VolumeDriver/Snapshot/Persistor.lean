/-
The snapshots file of a volume (SnapshotPersistor.cpp): the snapshots, the TLogs written since
the last one, and the operations the volume applies to them. A run starts from a new volume and
applies operations in any order, each with TLog ids that were not in use.
-/
import VolumeDriver.Snapshot.Snapshots

namespace VolumeDriver

open Lib

/-- The snapshot a clone was taken from. -/
structure ParentConfig where
  nspace : String
  snapshot : SnapshotName
  deriving DecidableEq, Repr

/-- The contents of the snapshots file: the current TLogs come after those of the snapshots. -/
structure SnapshotPersistor where
  current : TLogs
  snapshots : Snapshots
  parent : Option ParentConfig := none
  scrub_id : ScrubId := 0
  deriving DecidableEq, Repr

/-- Whether the current TLogs count. -/
inductive WithCurrent
  | T
  | F
  deriving DecidableEq, Repr

namespace SnapshotPersistor

/-- The largest metadata of a snapshot, in bytes. -/
def max_snapshot_metadata_size : Nat := 4096

/-! ## Operations -/

variable (sp : SnapshotPersistor)

/-- Starts a TLog with the fresh id `id`. -/
def newTLog (id : TLogId) : SnapshotPersistor :=
  { sp with current := sp.current ++ [{ id := id }] }

/-- The constructor for a new volume. -/
def init (parent : Option ParentConfig) (scrub_id : ScrubId) (id : TLogId) : SnapshotPersistor :=
  newTLog { current := [], snapshots := [], parent := parent, scrub_id := scrub_id } id

/-- Marks a TLog, in the snapshots before the current ones; an unknown TLog is only logged. -/
def setTLogWrittenToBackend (sp : SnapshotPersistor) (tlogid : TLogId) (on_backend : Bool) :
    SnapshotPersistor × Except Exn Unit :=
  match sp.snapshots.setTLogWrittenToBackend tlogid on_backend with
  | (ss, .error e) => ({ sp with snapshots := ss }, .error e)
  | (ss, .ok true) => ({ sp with snapshots := ss }, .ok ())
  | (ss, .ok false) =>
    ({ sp with snapshots := ss, current := (sp.current.setTLogWrittenToBackend tlogid on_backend).1 },
      match (sp.current.setTLogWrittenToBackend tlogid on_backend).2 with
      | .error e => .error e
      | .ok _ => .ok ())

/-- Takes a snapshot of the current TLogs and starts a new one. -/
def snapshot (name : SnapshotName) (metadata : List UInt8) (create_scrubbed : Bool)
    (id : TLogId) : Except Exn SnapshotPersistor :=
  if sp.snapshots.snapshotExists name then .error (.snapshotNameAlreadyExists name)
  else if max_snapshot_metadata_size < metadata.length then .error (.excessiveMetaData name)
  else
    let s := Snapshot.make sp.snapshots.getNextSnapshotNum name sp.current metadata create_scrubbed
    .ok (newTLog { sp with snapshots := sp.snapshots ++ [s], current := [] } id)

/-- Deletes a snapshot; its TLogs go to what comes after it. -/
def deleteSnapshot (sp : SnapshotPersistor) (num : SnapshotNum) : Except Exn SnapshotPersistor := do
  let (ss, current) ← sp.snapshots.deleteSnapshot num sp.current
  pure { sp with snapshots := ss, current := current }

/-- Moves all TLogs of the snapshots into the last one. -/
def deleteAllButLastSnapshot (sp : SnapshotPersistor) : Except Exn SnapshotPersistor := do
  let ss ← sp.snapshots.deleteAllButLastSnapshot
  pure { sp with snapshots := ss }

/-- Goes back to the end of a snapshot. -/
def deleteTLogsAndSnapshotsAfterSnapshot (sp : SnapshotPersistor) (num : SnapshotNum) (id : TLogId) :
    Except Exn SnapshotPersistor := do
  let ss ← sp.snapshots.deleteTLogsAndSnapshotsAfterSnapshot num
  pure (newTLog { sp with snapshots := ss, current := [] } id)

/-- Drops everything after a TLog; the snapshot that held it becomes the current TLogs. -/
def snip (sp : SnapshotPersistor) (tlog_id : TLogId) (backend_size : Option Nat) : SnapshotPersistor × Bool :=
  match sp.snapshots.snip tlog_id backend_size with
  | (ss, true) => ({ sp with current := (ss.getLast?.map (·.tlogs)).getD [], snapshots := ss.dropLast }, true)
  | (ss, false) =>
    match sp.current.snip tlog_id backend_size with
    | some ts => ({ sp with snapshots := ss, current := ts }, true)
    | none => ({ sp with snapshots := ss }, false)

/-- Keeps what is on the backend: the snapshots before the first one that is not, and of that
one (or of the current TLogs) the written front. -/
def trimToBackend (id : TLogId) : SnapshotPersistor :=
  match sp.snapshots.dropWhile (·.inBackend) with
  | s :: _ =>
    newTLog { sp with current := s.tlogs.tlogsOnBackend, snapshots := sp.snapshots.takeWhile (·.inBackend) } id
  | [] => newTLog { sp with current := sp.current.tlogsOnBackend } id

/-- Replaces the TLogs of a snapshot by the scrubbed ones; `scrub_id` is the new scrub id. -/
def replace (sp : SnapshotPersistor) (ins : List TLogId) (out : List TLog) (num : SnapshotNum)
    (scrub_id : ScrubId) : Except Exn SnapshotPersistor := do
  let ss ← sp.snapshots.replace ins out num
  pure { sp with snapshots := ss, scrub_id := scrub_id }

/-- Sets the scrubbed mark of a snapshot. -/
def setSnapshotScrubbed (num : SnapshotNum) (scrubbed : Bool) : Except Exn SnapshotPersistor := do
  let _ ← sp.snapshots.find_or_throw num
  pure { sp with snapshots := sp.snapshots.modify num fun s => { s with scrubbed := scrubbed } }

/-- `SnapshotManagement::replaceTLogsWithScrubbedOnes`. -/
def replaceTLogsWithScrubbedOnes (ins : List TLogId) (out : List TLog) (num : SnapshotNum)
    (scrub_id : ScrubId) : Except Exn SnapshotPersistor := do
  let sp ← sp.replace ins out num scrub_id
  sp.setSnapshotScrubbed num true

/-! ## Queries -/

/-- The number of the snapshot with the name. -/
def getSnapshotNum (name : SnapshotName) : Except Exn SnapshotNum :=
  match sp.snapshots.find_name name with
  | some s => .ok s.num
  | none => .error (.snapshotNotFound ("Could not find snapshot " ++ name))

/-- The TLog is in the file. -/
def tlogReferenced (sp : SnapshotPersistor) (tlog_id : TLogId) : Bool :=
  sp.snapshots.tlogReferenced tlog_id || sp.current.tlogReferenced tlog_id

/-- The mark of the TLog; the current ones are looked at first. -/
def isTLogWrittenToBackend (sp : SnapshotPersistor) (tlogid : TLogId) : Bool :=
  match sp.current.isTLogWrittenToBackend tlogid with
  | some b => b
  | none => sp.snapshots.isTLogWrittenToBackend tlogid

/-- Appends the ids of the current TLogs. -/
def getCurrentTLogs (outTLogs : List TLogId) : List TLogId :=
  sp.current.getOrderedTLogIds outTLogs

/-- The TLogs of all snapshots by ascending number, and the current ones. -/
def getAllTLogs (vec : List TLogId) (with_current : WithCurrent) : List TLogId :=
  let snaps := sp.snapshots.getAllSnapshots.insertionSort (· ≤ ·)
  let vec := snaps.foldl (fun vec num => sp.snapshots.getTLogsInSnapshot num vec) vec
  match with_current with
  | .T => sp.getCurrentTLogs vec
  | .F => vec

/-- The ids up to the end of the snapshot. -/
def getTLogsTillSnapshot (sp : SnapshotPersistor) (num : SnapshotNum) (out : List TLogId) :
    Except Exn (List TLogId) :=
  sp.snapshots.getTLogsTillSnapshot num out

/-- The ids after the end of the snapshot, with the current ones. -/
def getTLogsAfterSnapshot (sp : SnapshotPersistor) (num : SnapshotNum) (out : List TLogId) :
    Except Exn (List TLogId) := do
  let out ← sp.snapshots.getTLogsAfterSnapshot num out
  pure (sp.current.getOrderedTLogIds out)

/-- The loop of `getTLogsNotWrittenToBackend` (`written = false`) and of
`getTLogsWrittenToBackend` (`written = true`): collects the TLogs marked as asked for. -/
def collectTLogs (sp : SnapshotPersistor) (written : Bool) :
    Bool → List TLogId → List TLogId → Except Exn (List TLogId)
  | _, [], out => .ok out
  | no_non_written_tlog_seen, t :: tmp, out =>
    if sp.isTLogWrittenToBackend t then do
      VERIFY (no_non_written_tlog_seen = true) "no_non_written_tlog_seen"
      collectTLogs sp written no_non_written_tlog_seen tmp (if written then out ++ [t] else out)
    else collectTLogs sp written false tmp (if written then out else out ++ [t])

/-- The ids of the TLogs not yet on the backend. -/
def getTLogsNotWrittenToBackend (out : List TLogId) : Except Exn (List TLogId) :=
  sp.collectTLogs false true (sp.getAllTLogs [] .T) out

/-- The ids of the TLogs on the backend. -/
def getTLogsWrittenToBackend (out : List TLogId) : Except Exn (List TLogId) :=
  sp.collectTLogs true true (sp.getAllTLogs [] .T) out

/-- `WrittenToBackendVerifier`: the state says whether an unwritten TLog was seen. -/
def writtenToBackendVerifier (unwritten_tlog_seen : Bool) (tlog : TLog) : Except Exn Bool :=
  if tlog.written_to_backend then
    if unwritten_tlog_seen then
      .error (.ioException ("TLog " ++ tlog.getName ++ " marked as written to backend but a previous TLog was not"))
    else .ok unwritten_tlog_seen
  else .ok true

/-- The check made when a snapshots file is loaded. -/
def verifySanity : Except Exn Unit := do
  let seen ← sp.snapshots.foldlM (fun seen s => s.tlogs.foldlM writtenToBackendVerifier seen) false
  let _ ← sp.current.foldlM writtenToBackendVerifier seen
  pure ()

/-- The loop over the snapshots of `getTLogsOnBackendSinceLastCork`, newest first. -/
def sinceLastCork (cork : Option UUID) : Snapshots → List TLogId → Except Exn (Bool × List TLogId)
  | [], tlog_names => .ok (false, tlog_names)
  | s :: ss, tlog_names => do
    let (found, tlog_names) ← s.getReversedTLogsOnBackendSinceLastCork cork tlog_names
    if found then pure (true, tlog_names) else sinceLastCork cork ss tlog_names

/-- The written TLogs after `cork`, oldest first. -/
def getTLogsOnBackendSinceLastCork (cork implicit_start_cork : Option UUID) :
    Except Exn (List TLogId) := do
  VERIFY ((sp.parent ≠ none ∧ implicit_start_cork ≠ none) ∨ (sp.parent = none ∧ implicit_start_cork = none))
    "(parent_ and implicit_start_cork != boost::none) or (not parent_ and implicit_start_cork == boost::none)"
  let (found, tlog_names) ← sp.current.getReversedTLogsOnBackendSinceLastCork cork []
  if found then pure tlog_names.reverse
  else do
    let (found, tlog_names) ← sinceLastCork cork sp.snapshots.reverse tlog_names
    if found then pure tlog_names.reverse
    else if cork = implicit_start_cork then pure tlog_names.reverse
    else throw .corkNotFound

/-- The last written current TLog, or the cork of the last snapshot that is written. -/
def lastCork : Option UUID :=
  match sp.current.reverse.find? (·.written_to_backend) with
  | some t => some t.id
  | none => (sp.snapshots.reverse.find? (·.writtenToBackend)).map (·.cork_uuid)

/-! ## Runs -/

/-- The calls that change the file. -/
inductive Op
  | newTLog (id : TLogId)
  | snapshot (name : SnapshotName) (metadata : List UInt8) (create_scrubbed : Bool) (id : TLogId)
  | deleteSnapshot (num : SnapshotNum)
  | deleteAllButLastSnapshot
  | deleteTLogsAndSnapshotsAfterSnapshot (num : SnapshotNum) (id : TLogId)
  | snip (tlog_id : TLogId) (backend_size : Option Nat)
  | trimToBackend (id : TLogId)
  | setTLogWrittenToBackend (tlogid : TLogId) (on_backend : Bool)
  | replace (ins : List TLogId) (out : List TLog) (num : SnapshotNum) (scrub_id : ScrubId)

/-- The state after a call that either returned the new state or threw before changing any. -/
def orUnchanged (r : Except Exn SnapshotPersistor) : SnapshotPersistor :=
  match r with
  | .ok sp' => sp'
  | .error _ => sp

/-- The file after a call. -/
def step : Op → SnapshotPersistor
  | .newTLog id => sp.newTLog id
  | .snapshot name metadata create_scrubbed id => sp.orUnchanged (sp.snapshot name metadata create_scrubbed id)
  | .deleteSnapshot num => sp.orUnchanged (sp.deleteSnapshot num)
  | .deleteAllButLastSnapshot => sp.orUnchanged sp.deleteAllButLastSnapshot
  | .deleteTLogsAndSnapshotsAfterSnapshot num id => sp.orUnchanged (sp.deleteTLogsAndSnapshotsAfterSnapshot num id)
  | .snip tlog_id backend_size => (sp.snip tlog_id backend_size).1
  | .trimToBackend id => sp.trimToBackend id
  | .setTLogWrittenToBackend tlogid on_backend => (sp.setTLogWrittenToBackend tlogid on_backend).1
  | .replace ins out num scrub_id => sp.orUnchanged (sp.replace ins out num scrub_id)

/-- All TLogs: those of the snapshots in list order, then the current ones. -/
def allTLogs (sp : SnapshotPersistor) : TLogs := sp.snapshots.allTLogs ++ sp.current

/-- An id that neither names a TLog nor is the cork of a snapshot. -/
def Fresh (id : TLogId) : Prop :=
  id ∉ sp.allTLogs.map (·.id) ∧ id ∉ sp.snapshots.map (·.cork_uuid)

/-- What the callers guarantee: new TLogs have fresh ids, and a scrub result is only applied to
a snapshot whose TLogs are all written. -/
def Legal : Op → Prop
  | .newTLog id => sp.Fresh id
  | .snapshot _ _ _ id => sp.Fresh id
  | .deleteTLogsAndSnapshotsAfterSnapshot _ id => sp.Fresh id
  | .trimToBackend id => sp.Fresh id
  | .replace _ out num _ =>
    (∀ s ∈ sp.snapshots, s.num = num → s.writtenToBackend = true) ∧ (out.map (·.id)).Nodup ∧
      ∀ t ∈ out, sp.Fresh t.id
  | _ => True

/-- In addition, a TLog once written is not taken back. -/
def LegalOnBackend (op : Op) : Prop :=
  sp.Legal op ∧ ∀ tlogid b, op = .setTLogWrittenToBackend tlogid b → b = true

/-- The states of a volume whose parent is `parent` under calls that `L` allows. -/
inductive Reachable (L : SnapshotPersistor → Op → Prop) (parent : Option ParentConfig) : SnapshotPersistor → Prop
  | init (scrub_id : ScrubId) (id : TLogId) : Reachable L parent (init parent scrub_id id)
  | step {sp : SnapshotPersistor} {op : Op} : Reachable L parent sp → L sp op → Reachable L parent (sp.step op)

theorem Reachable.mono {L L' : SnapshotPersistor → Op → Prop} {parent : Option ParentConfig} {sp : SnapshotPersistor}
    (hL : ∀ sp op, L sp op → L' sp op) (h : Reachable L parent sp) : Reachable L' parent sp := by
  induction h with
  | init scrub_id id => exact .init scrub_id id
  | step _ hl ih => exact .step ih (hL _ _ hl)

theorem Reachable.legal {parent : Option ParentConfig} {sp : SnapshotPersistor}
    (h : Reachable LegalOnBackend parent sp) : Reachable Legal parent sp :=
  h.mono fun _ _ hl => hl.1

end SnapshotPersistor

end VolumeDriver
