/-
The SCO cache under the data store of a volume (`SCOCache`, `DataStoreNG`): on which mount point a
SCO is kept, whether it may be dropped, and where it is fetched from when it is not there. A SCO's
file is known by its mount point, its namespace and its name. The calls run under the data store's
lock, so no SCO is found while it is being fetched; how the calls outside of it end is given with
each of them.
-/
import VolumeDriver.DataStore.DataStoreNG
import VolumeDriver.Lib.Steps

namespace VolumeDriver.Caching

open Lib

/-- What is done with a SCO once it is on the backend. -/
inductive SCOWrittenToBackendAction
  | SetDisposable
  | SetDisposableAndPurgeFromPageCache
  | PurgeFromSCOCache
  deriving DecidableEq, Repr

/-- The namespace of a volume. -/
abbrev Namespace := String

/-- A mount point of the cache. -/
abbrev MountPoint := Nat

/-- A SCO in the cache. -/
structure CachedSCO where
  mntPoint_ : MountPoint
  disposable_ : Bool := false
  /-- The size of the file, in clusters. -/
  st_size : Nat := 0
  deriving DecidableEq, Repr

/-- The mount points and the SCOs on them. -/
structure SCOCache where
  /-- The mount points that are online. -/
  mountPoints_ : List MountPoint
  nsMap_ : Namespace × SCO → Option CachedSCO := fun _ => none

/-- What is done with the file of a SCO and may fail. -/
inductive FileOp
  | open
  | sync
  | setDisposable
  | pwrite
  | pread
  | fetch
  deriving DecidableEq, Repr

/-- How the calls outside of the data store end. -/
structure Calls where
  /-- Where a new SCO goes, if there is room. -/
  getWriteMountPoint_ : Option MountPoint := none
  fails : FileOp → SCO → Bool := fun _ _ => false
  setErrorCount_fails : MountPoint → Bool := fun _ => false
  /-- The clusters of the SCO with the DTL or on the backend; none if it cannot be had. -/
  fetched : SCO → Option Nat := fun _ => none
  /-- The backend can read a part of an object. -/
  partial_read : Bool := true

/-- No file system operation fails. -/
structure Calls.Fine (calls : Calls) : Prop where
  files : ∀ op sco, calls.fails op sco = false
  mountPoints : ∀ mp, calls.setErrorCount_fails mp = false

namespace SCOCache

/-- The mount point goes, and every SCO on it, of all namespaces. -/
def dropMountPoint (c : SCOCache) (mp : MountPoint) : SCOCache where
  mountPoints_ := c.mountPoints_.filter (· ≠ mp)
  nsMap_ := fun key => (c.nsMap_ key).filter (·.mntPoint_ ≠ mp)

/-- A mount point that cannot take the new error count goes too. -/
def bumpMountPointErrorCount_ (calls : Calls) (c : SCOCache) : SCOCache :=
  (c.mountPoints_.filter calls.setErrorCount_fails).foldl dropMountPoint c

/-- Takes a mount point offline, with an error count for the others. -/
def offlineMountPoint_ (calls : Calls) (mp : MountPoint) (c : SCOCache) : SCOCache :=
  if mp ∈ c.mountPoints_ then (c.dropMountPoint mp).bumpMountPointErrorCount_ calls else c

end SCOCache

/-- The data store with its part of the SCO cache. -/
structure Store where
  nspace_ : Namespace
  cache : SCOCache
  num_open_scos : Nat
  currentClusterLoc_ : ClusterLocation := ⟨⟨1, 0, 0⟩, 0⟩
  /-- The open SCOs by bucket, each with the mount point of its file. -/
  openSCOs_ : Nat → Option (SCO × MountPoint) := fun _ => none
  pendingTLogSCOs_ : List SCO := []
  latestSCOnumberInBackend_ : SCONumber := 0
  /-- The arguments of `writtenToBackend` so far. -/
  written : List SCO := []
  /-- The largest argument of `writtenToBackendUpTo` so far. -/
  upTo : SCONumber := 0
  /-- The SCOs that were made disposable or purged. -/
  released : List SCO := []

/-- Calls of the data store. -/
abbrev M := EStateM VolumeExn Store

namespace Store

/-- The number of the current SCO. -/
def number (s : Store) : SCONumber := s.currentClusterLoc_.sco.number

variable (s : Store)

variable (sco : SCO)

/-- The cache's entry of a SCO of the volume. -/
def entry : Option CachedSCO := s.cache.nsMap_ (s.nspace_, sco)

/-- Sets or removes the entry of a SCO. -/
def withEntry (e : Option CachedSCO) : Store :=
  { s with cache := { s.cache with nsMap_ := Function.update s.cache.nsMap_ (s.nspace_, sco) e } }

/-- The bucket of a SCO among the open ones. -/
def index_ : Nat := sco.number % s.num_open_scos

/-- `openSCOs_.find`, with the mount point of the file. -/
def find : Option MountPoint :=
  match s.openSCOs_ (s.index_ sco) with
  | some (x, mp) => if x = sco then some mp else none
  | none => none

/-- Sets or empties the bucket of a SCO. -/
def withBucket (o : Option (SCO × MountPoint)) : Store :=
  { s with openSCOs_ := Function.update s.openSCOs_ (s.index_ sco) o }

/-- A mount point goes offline. -/
def offlineMountPoint_ (calls : Calls) (mp : MountPoint) (s : Store) : Store :=
  { s with cache := s.cache.offlineMountPoint_ calls mp }

/-- `getSCO_` takes the SCO from the backend, and not from the DTL. -/
def fromBackend : Bool :=
  sco.cloneID ≠ 0 || sco.number ≤ s.latestSCOnumberInBackend_ || s.pendingTLogSCOs_.contains sco

/-- The SCO's entry as `setDisposable` leaves it. -/
def disposed (e : CachedSCO) : Store :=
  { s.withEntry sco (some { e with disposable_ := true }) with released := s.released ++ [sco] }

/-- The current SCO is the next one, without clusters. -/
def nextSCO : Store :=
  { s with currentClusterLoc_ := ⟨⟨(s.number + 1) % 2 ^ 32, s.currentClusterLoc_.sco.cloneID, 0⟩, 0⟩ }

/-- Clusters are written to the open SCO; its file is in the cache unless the mount point is gone. -/
def pwrote (n : Nat) (mp : MountPoint) : Store :=
  let sco := s.currentClusterLoc_.sco
  let off := s.currentClusterLoc_.offset
  { s.withEntry sco ((s.entry sco).map fun e =>
      if e.mntPoint_ = mp then { e with st_size := max e.st_size (off + n) } else e) with
    currentClusterLoc_ := { s.currentClusterLoc_ with offset := (off + n) % 2 ^ 16 } }

end Store

/-! ## Open SCOs -/

variable (calls : Calls)

variable (sco : SCO)

/-- Syncs and closes the SCO in the bucket. -/
def erase_bucket : M Unit := do
  let s ← get
  match s.openSCOs_ (s.index_ sco) with
  | some o => if calls.fails .sync o.1 then throw (.exn (.ioException "sync")) else set (s.withBucket sco none)
  | none => pure ()

/-- Puts an open SCO in its bucket. -/
def insert (mp : MountPoint) : M Unit := do
  erase_bucket calls sco
  modify fun s => s.withBucket sco (some (sco, mp))

/-- Closes a SCO, after a sync if asked to. -/
def erase (sync : Bool) : M Unit := do
  let s ← get
  if (s.find sco).isSome then
    if sync && calls.fails .sync sco then throw (.exn (.ioException "sync")) else set (s.withBucket sco none)
  else pure ()

/-- Opens the file of a SCO. -/
def openSCO (mp : MountPoint) : M Unit :=
  if calls.fails .open sco then throw (.exn (.ioException "open")) else insert calls sco mp

/-! ## Entries of the cache -/

/-- A mount point that is full, or that none is left, ends the call. -/
def createSCO : M MountPoint := do
  let s ← get
  if (s.entry sco).isSome then throw (.exn (.ioException "attempt to create existing SCO"))
  else
    match calls.getWriteMountPoint_ with
    | some mp =>
      if mp ∈ s.cache.mountPoints_ then
        set (s.withEntry sco (some { mntPoint_ := mp }))
        pure mp
      else throw .transientException
    | none => throw .transientException

/-- `setDisposable` of the SCO whose file is on the mount point. -/
def setDisposable (calls : Calls) (sco : SCO) (mp : MountPoint) : M Unit := do
  let s ← get
  if mp ∉ s.cache.mountPoints_ then throw (.exn (.ioException "mountpoint is offline"))
  else
    match s.entry sco with
    | some e =>
      if calls.fails .setDisposable sco then throw (.exn (.ioException "Failed to stat"))
      else if e.st_size = 0 then throw (.exn (.ioException "attempt to set empty SCO disposable"))
      else set (s.disposed sco e)
    | none => throw (.exn (.ioException "Failed to stat"))

/-- Removes a SCO from the cache. -/
def removeSCO (removeNonDisposable : Bool) : M Unit := do
  let s ← get
  match s.entry sco with
  | some e =>
    if !e.disposable_ && !removeNonDisposable then throw (.exn (.ioException "attempt to remove non-disposable SCO"))
    else set { s.withEntry sco none with released := s.released ++ [sco] }
  | none => throw (.exn (.ioException "SCO not found"))

/-- The second half of `SCOCache::getSCO_`: the new SCO's file is filled. What comes from the backend
is disposable, what comes from the DTL is not; the DTL's fetcher does not accept an empty SCO. -/
def fetch (calls : Calls) (disposable : Bool) (sco : SCO) (mp : MountPoint) : M MountPoint := do
  if calls.fails .fetch sco then
    modify (Store.offlineMountPoint_ calls mp)
    throw .transientException
  else
    match calls.fetched sco with
    | some n =>
      if n = 0 && !disposable then
        modify fun s => s.withEntry sco none
        throw (.exn (.ioException "failed to get SCO"))
      else
        modify fun s => s.withEntry sco (some { mntPoint_ := mp, st_size := n })
        if disposable then
          tryCatch (setDisposable calls sco mp) fun e => do
            modify (Store.offlineMountPoint_ calls mp)
            throw e
        pure mp
    | none =>
      modify fun s => s.withEntry sco none
      throw (.exn (.ioException "failed to get SCO"))

/-- `bi`: the caller gave a backend interface. -/
def getSCO_ (bi : Bool) : M MountPoint := do
  let s ← get
  if s.fromBackend sco && !bi then throw (.exn (.assertion "bi"))
  else
    match s.entry sco with
    | some e => pure e.mntPoint_
    | none => do
      let mp ← createSCO calls sco
      fetch calls (s.fromBackend sco) sco mp

/-! ## The data store -/

/-- Never returns. The current SCO is fetched again, other SCOs are when they are needed. -/
def reportIOError_ (mp : MountPoint) : M Unit := do
  modify (Store.offlineMountPoint_ calls mp)
  erase calls sco false
  let s ← get
  if s.currentClusterLoc_.sco = sco ∧ s.currentClusterLoc_.offset ≠ 0 then
    let mp ← getSCO_ calls sco false
    openSCO calls sco mp
  throw .transientException

/-- Creates and opens the current SCO. -/
def updateCurrentSCO_ : M Unit := do
  let sco := (← get).currentClusterLoc_.sco
  erase_bucket calls sco
  let mp ← createSCO calls sco
  tryCatch (openSCO calls sco mp) fun _ => reportIOError_ calls sco mp

/-- `currentSCO_`. -/
def Store.currentSCO_ (s : Store) : Option MountPoint := s.find s.currentClusterLoc_.sco

/-- The second half of `writeClusters_`. -/
def pwrite (calls : Calls) (n : Nat) : M Unit := do
  let s ← get
  match s.currentSCO_ with
  | some mp =>
    if calls.fails .pwrite s.currentClusterLoc_.sco then reportIOError_ calls s.currentClusterLoc_.sco mp
    else set (s.pwrote n mp)
  | none => throw (.exn (.assertion "currentSCO_() != 0"))

/-- Writes clusters to the current SCO, which is created if there is none. -/
def writeClusters (n : Nat) : M Unit := do
  if (← get).currentSCO_.isNone then
    updateCurrentSCO_ calls
  pwrite calls n

/-- Goes on to the next SCO if the current one has clusters. -/
def finalizeCurrentSCO : M Unit := do
  let s ← get
  if s.currentClusterLoc_.offset ≠ 0 then
    if s.currentSCO_.isNone then throw (.exn (.assertion "currentSCO_() != 0"))
    else
      set s.nextSCO
      tryCatch (updateCurrentSCO_ calls) fun
        | .transientException => pure ()
        | e => throw e
  else pure ()

/-- The SCO is on the backend; its TLog may not be. -/
def writtenToBackend : M Unit :=
  modify fun s =>
    { s with pendingTLogSCOs_ := s.pendingTLogSCOs_.insert sco, written := sco :: s.written }

/-- Dropping a SCO's pages from the page cache is tried only, and changes nothing here. -/
def release (action : SCOWrittenToBackendAction) (sco : SCO) (mp : MountPoint) : M Unit :=
  match action with
  | .SetDisposable | .SetDisposableAndPurgeFromPageCache => setDisposable calls sco mp
  | .PurgeFromSCOCache => removeSCO sco false

/-- The SCO is looked up among the open ones first. No exception leaves this function, but each is
reported as an I/O error. -/
def scoWrittenToBackend_ (calls : Calls) (action : SCOWrittenToBackendAction) (sco : SCO) : M Unit := do
  let s ← get
  match s.find sco <|> (s.entry sco).map (·.mntPoint_) with
  | some mp =>
    tryCatch (do erase calls sco true; release calls action sco mp) fun _ =>
      tryCatch (reportIOError_ calls sco mp) fun _ => pure ()
  | none => pure ()

/-- `scoWrittenToBackend_` of one SCO after the other. -/
def scosWrittenToBackend (calls : Calls) (action : SCOWrittenToBackendAction) : List SCO → M Unit
  | [] => pure ()
  | sco :: scos => do
    scoWrittenToBackend_ calls action sco
    scosWrittenToBackend calls action scos

/-- The pending SCOs up to the number. -/
def Store.due (s : Store) (num : SCONumber) : List SCO := s.pendingTLogSCOs_.filter (·.number ≤ num)

/-- The SCOs up to the number are on the backend, with their TLogs. -/
def Store.withLatest (s : Store) (num : SCONumber) : Store :=
  { s with
    latestSCOnumberInBackend_ := num
    pendingTLogSCOs_ := s.pendingTLogSCOs_.filter (¬ ·.number ≤ num)
    upTo := max s.upTo num }

/-- The SCOs that are no longer pending are released. -/
def writtenToBackendUpTo (action : SCOWrittenToBackendAction) (num : SCONumber) : M Unit := do
  let s ← get
  set (s.withLatest num)
  scosWrittenToBackend calls action (s.due num)

/-- An I/O error on a SCO that is reported from outside. -/
def reportIOError : M Unit := do
  match (← get).entry sco with
  | some e =>
    tryCatch (reportIOError_ calls sco e.mntPoint_) fun
      | .transientException => pure ()
      | e => throw e
  | none => throw (.exn (.ioException "SCO not found"))

/-- A read from the SCO's file. -/
def readFromSCO_ (mp : MountPoint) : M Unit :=
  if calls.fails .pread sco then reportIOError_ calls sco mp else pure ()

/-- `readClusters` for clusters of one SCO. A backend that cannot read a part of an object has the
SCO fetched as a whole. -/
def readClusters : M Unit := do
  let s ← get
  match s.find sco <|> (s.entry sco).map (·.mntPoint_) with
  | some mp => readFromSCO_ calls sco mp
  | none =>
    if s.fromBackend sco && calls.partial_read then pure ()
    else
      let mp ← getSCO_ calls sco true
      readFromSCO_ calls sco mp

/-- The cleaner drops a disposable SCO that nobody has open. -/
def cleanup (sco : SCO) : M Unit := do
  let s ← get
  if (s.find sco).isNone then removeSCO sco false else pure ()

/-- The calls of the data store. -/
inductive Action
  | writeClusters (n : Nat)
  | finalizeCurrentSCO
  | writtenToBackend (sco : SCO)
  | writtenToBackendUpTo (action : SCOWrittenToBackendAction) (num : SCONumber)
  | reportIOError (sco : SCO)
  | readClusters (sco : SCO)
  /-- `WriteSCO` asks for the file it is to write. -/
  | getSCO (sco : SCO)
  | cleanup (sco : SCO)

/-- A call of the data store, and how the calls it makes end. -/
structure Event where
  action : Action
  calls : Calls := {}

/-- The call of an event. -/
def Event.run (ev : Event) : M Unit :=
  match ev.action with
  | .writeClusters n => Caching.writeClusters ev.calls n
  | .finalizeCurrentSCO => Caching.finalizeCurrentSCO ev.calls
  | .writtenToBackend sco => Caching.writtenToBackend sco
  | .writtenToBackendUpTo action num => Caching.writtenToBackendUpTo ev.calls action num
  | .reportIOError sco => Caching.reportIOError ev.calls sco
  | .readClusters sco => Caching.readClusters ev.calls sco
  | .getSCO sco => do let _ ← getSCO_ ev.calls sco false
  | .cleanup sco => Caching.cleanup sco

/-- The state after a call, also one that throws. -/
def step (s : Store) (ev : Event) : Store := after ev.run s

end VolumeDriver.Caching
