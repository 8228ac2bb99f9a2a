/-
The list of snapshots of a volume (Snapshot.cpp): lookups by number and name, deletion by
splicing a snapshot's TLogs into its successor, cutting, and the TLogs before and after one.
-/
import VolumeDriver.Lib.Lists
import VolumeDriver.Snapshot.TLogs

namespace VolumeDriver

open Lib

/-- A snapshot: the TLogs since the previous one, and the cork that was the id of the last of
them when it was taken (scrubbing replaces the TLogs and keeps the cork). -/
structure Snapshot where
  tlogs : TLogs
  num : SnapshotNum
  name : SnapshotName
  metadata : List UInt8 := []
  scrubbed : Bool := false
  cork_uuid : UUID
  deriving DecidableEq, Repr

namespace Snapshot

/-- The constructor. A snapshot of no TLogs gets a random cork; `SnapshotPersistor::snapshot`
always passes at least one. -/
def make (num : SnapshotNum) (name : SnapshotName) (tlogs : TLogs) (metadata : List UInt8)
    (set_scrubbed : Bool) : Snapshot where
  tlogs := tlogs
  num := num
  name := name
  metadata := metadata
  scrubbed := set_scrubbed
  cork_uuid := (tlogs.getLast?.map (·.id)).getD 0

/-- All its TLogs are on the backend (the predicate of `trimToBackend`). -/
def inBackend (s : Snapshot) : Bool := s.tlogs.all (·.written_to_backend)

/-- All its TLogs are on the backend. -/
def writtenToBackend (s : Snapshot) : Bool := s.tlogs.writtenToBackend

/-- The snapshot's own cork names its end once it is written; else its TLogs are searched. -/
def getReversedTLogsOnBackendSinceLastCork (s : Snapshot) (cork : Option UUID) (reverse_vec : List TLogId) :
    Except Exn (Bool × List TLogId) :=
  if cork = some s.cork_uuid ∧ s.writtenToBackend = true then .ok (true, reverse_vec)
  else s.tlogs.getReversedTLogsOnBackendSinceLastCork cork reverse_vec

end Snapshot

/-- Snapshots, oldest first. -/
abbrev Snapshots := List Snapshot

namespace Snapshots

variable (ss : Snapshots)

/-- All TLogs, in list order. -/
def allTLogs : TLogs := (ss.map (·.tlogs)).flatten

/-- The first snapshot with the number. -/
def find_num (num : SnapshotNum) : Option Snapshot := ss.find? (·.num = num)

/-- The first snapshot with the name. -/
def find_name (name : SnapshotName) : Option Snapshot := ss.find? (·.name = name)

/-- The snapshot with the number, which has to exist. -/
def find_or_throw (num : SnapshotNum) : Except Exn Snapshot :=
  match ss.find_num num with
  | some s => .ok s
  | none => .error (.snapshotNotFound ("Could not find snapshot " ++ toString num))

/-- There is a snapshot with the name. -/
def snapshotExists (name : SnapshotName) : Bool := (ss.find_name name).isSome

/-- The number that the next snapshot gets. -/
def getNextSnapshotNum : SnapshotNum :=
  match ss.getLast? with
  | none => 0
  | some s => s.num + 1

/-- The TLog is one of a snapshot. -/
def tlogReferenced (ss : Snapshots) (tlog_id : TLogId) : Bool := ss.any (·.tlogs.tlogReferenced tlog_id)

/-- Appends the ids of the snapshot's TLogs. -/
def getTLogsInSnapshot (num : SnapshotNum) (out : List TLogId) : List TLogId :=
  match ss.find_num num with
  | some s => s.tlogs.getOrderedTLogIds out
  | none => out

/-- Goes over the snapshots in order; the list is returned also when a snapshot throws. -/
def setTLogWrittenToBackend : Snapshots → TLogId → Bool → Snapshots × Except Exn Bool
  | [], _, _ => ([], .ok false)
  | s :: ss, tid, on_backend =>
    match s.tlogs.setTLogWrittenToBackend tid on_backend with
    | (ts, .error e) => ({ s with tlogs := ts } :: ss, .error e)
    | (ts, .ok true) => ({ s with tlogs := ts } :: ss, .ok true)
    | (ts, .ok false) =>
      ({ s with tlogs := ts } :: (setTLogWrittenToBackend ss tid on_backend).1,
        (setTLogWrittenToBackend ss tid on_backend).2)

/-- The mark of the TLog; an unknown one is not written. -/
def isTLogWrittenToBackend : Snapshots → TLogId → Bool
  | [], _ => false
  | s :: ss, tid =>
    match s.tlogs.isTLogWrittenToBackend tid with
    | some b => b
    | none => isTLogWrittenToBackend ss tid

/-- Deletes a snapshot: its TLogs go to the front of its successor, or of `io` (the current
TLogs) if it is the last. -/
def deleteSnapshot : Snapshots → SnapshotNum → TLogs → Except Exn (Snapshots × TLogs)
  | [], num, _ => .error (.snapshotNotFound ("Could not find snapshot " ++ toString num))
  | s :: ss, num, io =>
    if s.num = num then
      match ss with
      | [] => .ok ([], s.tlogs ++ io)
      | s' :: ss' => .ok ({ s' with tlogs := s.tlogs ++ s'.tlogs, scrubbed := false } :: ss', io)
    else do
      let (ss', io') ← deleteSnapshot ss num io
      pure (s :: ss', io')

/-- Moves all TLogs into the last snapshot, from the second last backwards, and keeps only it. -/
def deleteAllButLastSnapshot : Except Exn Snapshots :=
  match ss.reverse with
  | [] => .error (.assertion "the_last != rend()")
  | the_last :: others =>
    .ok [others.foldl (fun l s => { l with tlogs := s.tlogs ++ l.tlogs, scrubbed := false }) the_last]

/-- Appends the ids up to the end of the snapshot. -/
def getTLogsTillSnapshot : Snapshots → SnapshotNum → List TLogId → Except Exn (List TLogId)
  | [], _, _ => .error (.snapshotNotFound "Snapshot does not exist")
  | s :: ss, num, out =>
    if s.num = num then .ok (s.tlogs.getOrderedTLogIds out)
    else getTLogsTillSnapshot ss num (s.tlogs.getOrderedTLogIds out)

/-- The loop of `getTLogsAfterSnapshot`, over the reversed list. -/
def tlogsAfterSnapshot : Snapshots → SnapshotNum → List TLogId → Except Exn (List TLogId)
  | [], _, _ => .error (.snapshotNotFound "Snapshot does not exist")
  | s :: ss, num, out =>
    if s.num = num then .ok out.reverse
    else tlogsAfterSnapshot ss num (s.tlogs.getReverseOrderedTLogIds out)

/-- The ids after the end of the snapshot, oldest first. -/
def getTLogsAfterSnapshot (num : SnapshotNum) (out : List TLogId) : Except Exn (List TLogId) :=
  tlogsAfterSnapshot ss.reverse num out

/-- Cuts after a TLog: the snapshot that holds it is cut, the later ones are dropped. -/
def snip : Snapshots → TLogId → Option Nat → Snapshots × Bool
  | [], _, _ => ([], false)
  | s :: ss, tlog_id, backend_size =>
    match s.tlogs.snip tlog_id backend_size with
    | some ts => ([{ s with tlogs := ts }], true)
    | none => (s :: (snip ss tlog_id backend_size).1, (snip ss tlog_id backend_size).2)

/-- Drops the snapshots after the one with the number. -/
def deleteTLogsAndSnapshotsAfterSnapshot : Snapshots → SnapshotNum → Except Exn Snapshots
  | [], num => .error (.snapshotNotFound ("Could not find snapshot " ++ toString num))
  | s :: ss, num =>
    if s.num = num then .ok [s]
    else do
      let ss' ← deleteTLogsAndSnapshotsAfterSnapshot ss num
      pure (s :: ss')

/-- The numbers of the snapshots. -/
def getAllSnapshots : List SnapshotNum := ss.map (·.num)

/-- The snapshot already has the TLogs that are to replace its own. -/
def already_replaced (vec : List TLog) (l : TLogs) : Bool :=
  vec.length != 0 && vec.length == l.length && decide (l = vec)

/-- Changes the first snapshot with number `num`. -/
def modify (ss : Snapshots) (num : SnapshotNum) (f : Snapshot → Snapshot) : Snapshots :=
  match ss with
  | [] => []
  | s :: ss => if s.num = num then f s :: ss else s :: modify ss num f

/-- Replaces the TLogs of a snapshot by those a scrub has written. -/
def replace (ss : Snapshots) (ins : List TLogId) (out : List TLog) (num : SnapshotNum) :
    Except Exn Snapshots := do
  VERIFY (∀ t ∈ out, t.written_to_backend = true) "t.writtenToBackend()"
  let s ← ss.find_or_throw num
  if already_replaced out s.tlogs then pure ss
  else do
    let ts ← s.tlogs.replace ins out
    pure (ss.modify num fun s => { s with tlogs := ts })

/-! ## Lookup by number -/

theorem find_num_of_mem {ss : Snapshots} {s : Snapshot} (hs : s ∈ ss) (hn : (ss.map (·.num)).Nodup) :
    ss.find_num s.num = some s :=
  find?_key hn hs

theorem find_or_throw_ok {ss : Snapshots} {num : SnapshotNum} {s : Snapshot} (h : ss.find_or_throw num = .ok s) :
    ∃ l₁ l₂, ss = l₁ ++ s :: l₂ ∧ s.num = num ∧ num ∉ l₁.map (·.num) := by
  unfold find_or_throw at h
  split at h
  · rename_i s' hs
    cases h
    obtain ⟨hp, l₁, l₂, rfl, hl⟩ := List.find?_eq_some_iff_append.1 hs
    refine ⟨l₁, l₂, rfl, by simpa using hp, ?_⟩
    rintro hm
    obtain ⟨x, hx, hxn⟩ := List.mem_map.1 hm
    exact absurd hxn (by simpa using hl x hx)
  · cases h

theorem modify_append {l₁ l₂ : Snapshots} {s : Snapshot} {num : SnapshotNum} {f : Snapshot → Snapshot}
    (hs : s.num = num) (hn : num ∉ l₁.map (·.num)) :
    modify (l₁ ++ s :: l₂) num f = l₁ ++ f s :: l₂ := by
  induction l₁ with
  | nil => simp [modify, hs]
  | cons x l₁ ih =>
    simp only [List.map_cons, List.mem_cons, not_or] at hn
    simp [modify, Ne.symm hn.1, ih hn.2]

@[simp] theorem allTLogs_nil : allTLogs [] = [] := rfl

@[simp] theorem allTLogs_cons (s : Snapshot) (ss : Snapshots) : allTLogs (s :: ss) = s.tlogs ++ allTLogs ss := rfl

@[simp] theorem allTLogs_append (a b : Snapshots) : allTLogs (a ++ b) = allTLogs a ++ allTLogs b := by
  simp [allTLogs]

theorem getTLogsTillSnapshot_append {l₁ l₂ : Snapshots} {s : Snapshot} (hn : s.num ∉ l₁.map (·.num)) :
    ∀ out, getTLogsTillSnapshot (l₁ ++ s :: l₂) s.num out = .ok (out ++ (l₁.allTLogs ++ s.tlogs).map (·.id)) := by
  induction l₁ with
  | nil => intro out; simp [getTLogsTillSnapshot, TLogs.getOrderedTLogIds]
  | cons x l₁ ih =>
    intro out
    simp only [List.map_cons, List.mem_cons, not_or] at hn
    simp [getTLogsTillSnapshot, Ne.symm hn.1, ih hn.2, TLogs.getOrderedTLogIds]

end Snapshots

end VolumeDriver
