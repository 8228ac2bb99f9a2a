/-
The SCO cache in use: namespaces come and go, a clean-up removes SCOs one by one, and any number of
threads fetch SCOs. A fetch (`getSCO_`) takes the lock of the cache twice, once to look the SCO up
or to create it, blocked, and once when the data is there or could not be had; everything else that
is a step here runs under that lock as a whole.
-/
import VolumeDriver.Lib.Steps
import VolumeDriver.SCOCache.Cache

namespace VolumeDriver.Cache

open Lib

/-! ## Namespaces -/

namespace SCOCache

/-- The namespace is on the mount point. -/
def hasDirectory (c : SCOCache) (ns : Namespace) (mp : SCOCacheMountPointPtr) : Bool :=
  ((c.directories mp).find ns).isSome

/-- `SCOCacheMountPoint::removeNamespace`. -/
def dropDirectory (ns : Namespace) (c : SCOCache) (mp : SCOCacheMountPointPtr) : SCOCache :=
  { c with directories := fun x => if x = mp then (c.directories mp).erase ns else c.directories x }

/-- `removeNamespaceFromMountPoints_`. -/
def removeNamespaceFromMountPoints_ (ns : Namespace) (c : SCOCache) : SCOCache :=
  (c.mountPoints_.filter (c.hasDirectory ns)).foldl (dropDirectory ns) c

/-- `disableNamespace_`: the files stay. -/
def disableNamespace_ (calls : Calls) (ns : Namespace) (c : SCOCache) : SCOCache :=
  let entries := (c.findNamespace_ ns).getD []
  entries.foldl (fun c q => c.collect calls q.2.sco_) { c with nsMap_ := c.nsMap_.erase ns }

/-- All entries of a namespace are blocked, or none. -/
def setAllBlocked (ns : Namespace) (blocked : Bool) (c : SCOCache) : SCOCache :=
  c.setNamespace ns (((c.findNamespace_ ns).getD []).map fun q => (q.1, q.2.setBlocked blocked))

end SCOCache

/-- Those that have it already are skipped. -/
def addNamespaceToMountPoints (calls : Calls) (ns : Namespace) : List SCOCacheMountPointPtr → M Unit
  | [] => return
  | mp :: rest => do
    if !(← get).hasDirectory ns mp then addNamespaceTo calls mp ns
    addNamespaceToMountPoints calls ns rest

variable (calls : Calls)

/-- `SCOCache::addNamespace`. -/
def addNamespace (ns : Namespace) : M Unit := do
  let c ← get
  if (c.findNamespace_ ns).isSome then
    throw (.IOException "namespace already exists" (.nspace ns) (some .EEXIST))
  else if c.mountPoints_.any (c.hasDirectory ns) then
    throw (.IOException "namespace already exists but is inactive" (.nspace ns) (some .EEXIST))
  else do
    tryCatch (addNamespaceToMountPoints calls ns c.mountPoints_) fun e => do
      modify (·.removeNamespaceFromMountPoints_ ns)
      throw e
    modify (·.setNamespace ns [])

/-- `SCOCacheMountPoint::scanNamespace`. -/
def scanNamespace (calls : Calls) (mp : SCOCacheMountPointPtr) (ns : Namespace) : Assoc SCO File → M Unit
  | [] => return
  | (name, f) :: rest => do
    let a ← scannedCachedSCO ns name mp f
    tryCatch (insertSCO_ a true) fun e => do
      modify (·.collect calls a)
      throw e
    scanNamespace calls mp ns rest

/-- The loop of `enableNamespace`. -/
def scanMountPoints (calls : Calls) (ns : Namespace) : List SCOCacheMountPointPtr → M Unit
  | [] => return
  | mp :: rest => do
    match ((← get).directories mp).find ns with
      | some files => scanNamespace calls mp ns files
      | none => addNamespaceTo calls mp ns
    scanMountPoints calls ns rest

/-- `SCOCache::enableNamespace`; `initXVals_` unblocks the entries. -/
def enableNamespace (ns : Namespace) : M Unit := do
  let c ← get
  if (c.findNamespace_ ns).isSome then
    throw (.IOException "namespace already active" (.nspace ns) (some .EEXIST))
  else do
    modify (·.setNamespace ns [])
    tryCatch (scanMountPoints calls ns c.mountPoints_) fun e => do
      modify (·.disableNamespace_ calls ns)
      throw e
    modify (·.setAllBlocked ns false)

/-- `SCOCache::disableNamespace`. -/
def disableNamespace (ns : Namespace) : M Unit := do
  let _ ← findNamespace_throw_ ns
  modify (·.disableNamespace_ calls ns)

/-! ## Clean-up -/

/-- `prepareCleanup_` blocks some of the disposable SCOs that nobody uses. Which ones it takes
depends on the space that is left and on how likely they are to be read. -/
def SCOCache.choose (c : SCOCache) (p : Namespace × SCO) : SCOCache :=
  match c.findEntry p.1 p.2 with
  | none => c
  | some e =>
    -- the loop has a pointer of its own
    if (c.sco e.sco_).disposable_ && decide (c.use_count e.sco_ + 1 = 2) && !e.blocked_ then
      { c.setEntry p.1 p.2 (e.setBlocked true) with to_delete := c.to_delete ++ [e.sco_] }
    else c

/-- The part of `eraseSCOSetIterator_` after its first `VERIFY`. -/
def eraseChosen (a : CachedSCOPtr) (remove_non_disposable : Bool) : M Unit := do
  let o := (← get).sco a
  modify fun c => { c with to_delete := c.to_delete.erase a }
  findAndRemoveSCO_ calls o.nspace_ o.scoName_ remove_non_disposable true true
  modify fun c => if (c.file a).isSome then c.offlineMountPoint_ calls o.mntPoint_ else c

/-- `eraseSCOSetIterator_`. When it throws, nothing is left to be deleted. -/
def eraseSCOSetIterator_ (remove_non_disposable : Bool) : M Unit := do
  match (← get).to_delete.head? with
  | none => return
  | some a =>
    tryCatch (do
      if (← get).use_count a = 1 then eraseChosen calls a remove_non_disposable else throw .assertion) fun e => do
      modify fun c => { c with to_delete := [] }
      throw e

/-- `doCleanup_` takes one SCO out of the set at a time. -/
def doCleanup_ (calls : Calls) (remove_non_disposable : Bool) : Nat → M Unit
  | 0 => return
  | n + 1 => do
    eraseSCOSetIterator_ calls remove_non_disposable
    doCleanup_ calls remove_non_disposable n

/-- `SCOCache::removeNamespace`. -/
def removeNamespace (ns : Namespace) : M Unit := do
  let entries ← findNamespace_throw_ ns
  modify fun c => { c.setAllBlocked ns true with to_delete := entries.map (·.2.sco_) }
  doCleanup_ calls true entries.length
  let entries ← findNamespace_throw_ ns
  if entries ≠ [] then throw .assertion
  else modify fun c => { c with nsMap_ := c.nsMap_.erase ns }.removeNamespaceFromMountPoints_ ns

/-! ## Fetching -/

/-- The file is written, and created if need be. -/
def SCOCache.writeFile (c : SCOCache) (a : CachedSCOPtr) (n : Nat) : SCOCache :=
  c.setFile a (some { (c.file a).getD { st_size := 0 } with st_size := n })

/-- The first half of `getSCO_`: the SCO is there, or an entry is created for it. The pointer is
with the thread now. -/
def lookupOrCreate (ns : Namespace) (name : SCO) (scoSize : Nat) : M (CachedSCOPtr × Bool) := do
  match ← findSCO_ ns name with
  | some a => return (a, true)
  | none => return (← createSCO_ ns name scoSize true, false)

/-- A disposable SCO is made so; if that fails, its mount point is offlined. -/
def disposeFetched (a : CachedSCOPtr) (disposable : Bool) : M Unit :=
  if disposable then
    tryCatch (setDisposable calls a) fun e => do
      reportIOError_ calls a
      throw e
  else return

/-- The entry is looked up once more, by the name of the SCO, as the mount point may be gone. -/
def showFetched (a : CachedSCOPtr) : M Unit := do
  let c ← get
  match c.findEntry (c.sco a).nspace_ (c.sco a).scoName_ with
  | none => throw (.IOException "no such entry" (.sco (c.sco a).nspace_ (c.sco a).scoName_) (some .ENOENT))
  | some e => set (c.setEntry (c.sco a).nspace_ (c.sco a).scoName_ (e.setBlocked false))

/-- How far a fetch is. -/
inductive Phase
  | fetching
  | fetched
  /-- The fetch threw, but not because of the mount point. -/
  | failed
  /-- `SCOCacheMountPointIOException`. -/
  | ioError
  deriving DecidableEq, Repr

/-- A thread between the two halves of `getSCO_`. -/
structure Fetch where
  sco : CachedSCOPtr
  disposable : Bool
  phase : Phase := .fetching
  deriving DecidableEq, Repr

/-- The second half of `getSCO_`. -/
def Fetch.finish (f : Fetch) : M Unit :=
  match f.phase with
  | .fetching => return
  | .fetched => do
    disposeFetched calls f.sco f.disposable
    showFetched f.sco
  | .failed => do
    removeSCO_ calls f.sco false
    throw .filesystem
  | .ioError => do
    reportIOError_ calls f.sco
    throw (.TransientException "Retryable I/O error")

/-! ## Restart -/

/-- `SCOCacheMountPoint::scan_`: all SCOs in all namespaces are charged. -/
def scan_ (mp : SCOCacheMountPointPtr) : List Nat → M Unit
  | [] => return
  | size :: rest => do
    updateUsedSize mp (int64 size)
    scan_ mp rest

/-- The sizes of the files in a directory. -/
def sizes (files : Assoc SCO File) : List Nat := files.map (·.2.st_size)

/-- A mount point comes back with the SCOs on it; it is left out if they do not fit. -/
def restartMountPoint (mp : SCOCacheMountPointPtr) : M Unit := do
  modify fun c => c.setMountPoint mp { c.mountPoint mp with used_ := 0, offline_ := false, choking_ := false }
  let c ← get
  tryCatch (do
    scan_ mp ((c.directories mp).flatMap fun d => sizes d.2)
    modify fun c => { c with mountPoints_ := c.mountPoints_ ++ [mp] }) fun _ => return

/-- All of them. -/
def restartMountPoints : List SCOCacheMountPointPtr → M Unit
  | [] => return
  | mp :: rest => do
    restartMountPoint mp
    restartMountPoints rest

/-- The process is restarted with some of the mount points. The files are what is left. -/
def restart (mps : List SCOCacheMountPointPtr) : M Unit := do
  modify fun c => { c with mountPoints_ := [], nsMap_ := [], live := ∅, references := [], to_delete := [] }
  restartMountPoints mps.dedup
  modify fun c => { c with currentMountPoint_ := c.mountPoints_.head? }

/-! ## The system -/

/-- The cache and the fetches under way. -/
structure State where
  cache : SCOCache
  fetches : List Fetch := []

/-- What happens. -/
inductive Action
  /-- The writer creates a SCO. -/
  | createSCO (ns : Namespace) (name : SCO) (scoSize : Nat)
  | getSCO (ns : Namespace) (name : SCO) (scoSize : Nat) (disposable : Bool)
  /-- The fetch of a thread has written its file. -/
  | fetched (i : Nat) (st_size : Nat)
  /-- The fetch of a thread threw, and has written a part of its file or nothing. -/
  | fetchThrew (i : Nat) (st_size : Option Nat) (phase : Phase)
  /-- The thread takes the lock again. -/
  | finish (i : Nat)
  | findSCO (ns : Namespace) (name : SCO)
  /-- Somebody who holds a pointer writes to the file. -/
  | write (a : CachedSCOPtr) (st_size : Nat)
  | setSCODisposable (a : CachedSCOPtr)
  /-- A pointer that `createSCO`, `getSCO` or `findSCO` has returned goes out of scope. -/
  | release (a : CachedSCOPtr)
  | removeSCO (ns : Namespace) (name : SCO) (removeNonDisposable unlink : Bool)
  | prepareCleanup (chosen : List (Namespace × SCO))
  | cleanup
  | offline (mp : SCOCacheMountPointPtr)
  | addNamespace (ns : Namespace)
  | removeNamespace (ns : Namespace)
  | disableNamespace (ns : Namespace)
  | enableNamespace (ns : Namespace)
  | choke (mp : SCOCacheMountPointPtr) (choking : Bool)
  | restart (mps : List SCOCacheMountPointPtr)

/-- An action, and how the calls of the file system end in it. -/
structure Event where
  action : Action
  calls : Calls := {}

namespace State

variable (s : State)

/-- The cache is changed. -/
def modify (f : SCOCache → SCOCache) : State := { s with cache := f s.cache }

/-- A call is made. -/
def perform {α : Type} (s : State) (m : M α) : State := { s with cache := after m s.cache }

/-- The pointer that a call returns is the caller's. -/
def hold (a : CachedSCOPtr) : State := s.modify fun c => { c with references := a :: c.references }

/-- A pointer is given up. -/
def release (calls : Calls) (s : State) (a : CachedSCOPtr) : State :=
  s.modify fun c => { c with references := c.references.erase a }.collect calls a

/-- Whether somebody other than a fetching thread has a pointer to the SCO. -/
def held (a : CachedSCOPtr) : Bool :=
  (s.fetches.countP fun f => f.sco = a) < s.cache.references.count a

/-- No SCO of the namespace is being fetched. -/
def idle (ns : Namespace) : Bool := s.fetches.all fun f => (s.cache.sco f.sco).nspace_ ≠ ns

/-- `SCOCache::createSCO`. -/
def createSCO (ns : Namespace) (name : SCO) (scoSize : Nat) : State :=
  match createSCO_ ns name scoSize false s.cache with
  | .ok a c => { s with cache := c }.hold a
  | .error _ c => { s with cache := c }

/-- The first half of `SCOCache::getSCO`. -/
def getSCO (ns : Namespace) (name : SCO) (scoSize : Nat) (disposable : Bool) : State :=
  match lookupOrCreate ns name scoSize s.cache with
  | .ok (a, true) c => { s with cache := c }.hold a
  | .ok (a, false) c => { cache := c, fetches := s.fetches ++ [{ sco := a, disposable := disposable }] : State }.hold a
  | .error _ c => { s with cache := c }

/-- `SCOCache::findSCO`. -/
def findSCO (ns : Namespace) (name : SCO) : State :=
  match findSCO_ ns name s.cache with
  | .ok (some a) _ => s.hold a
  | _ => s

/-- The fetch of a thread ends. -/
def endFetch (i : Nat) (f : Fetch) (st_size : Option Nat) (phase : Phase) : State where
  cache :=
    let c := match st_size with
      | none => s.cache
      | some n => s.cache.writeFile f.sco n
    if phase = .fetched then c.setSCO f.sco { c.sco f.sco with complete := true } else c
  fetches := s.fetches.set i { f with phase := phase }

/-- The thread returns the pointer, or gives it up when it throws. -/
def finish (calls : Calls) (s : State) (i : Nat) (f : Fetch) : State :=
  match f.finish calls s.cache with
  | .ok _ c => { cache := c, fetches := s.fetches.eraseIdx i }
  | .error _ c => { cache := c, fetches := s.fetches.eraseIdx i : State }.release calls f.sco

/-- Neither prefetching nor normal operations are allowed while a namespace is changed. -/
def manage (ns : Namespace) (m : M Unit) : State := if s.idle ns then s.perform m else s

end State

open State in

/-- What an event does; one that cannot be happens to nobody. -/
def step (s : State) (ev : Event) : State :=
  let calls := ev.calls
  match ev.action with
  | .createSCO ns name scoSize => s.createSCO ns name scoSize
  | .getSCO ns name scoSize disposable => s.getSCO ns name scoSize disposable
  | .fetched i n =>
    match s.fetches[i]? with
    | some f => if f.phase = .fetching then s.endFetch i f (some n) .fetched else s
    | none => s
  | .fetchThrew i n phase =>
    match s.fetches[i]? with
    | some f => if f.phase = .fetching ∧ (phase = .failed ∨ phase = .ioError) then s.endFetch i f n phase else s
    | none => s
  | .finish i =>
    match s.fetches[i]? with
    | some f => if f.phase = .fetching then s else s.finish calls i f
    | none => s
  | .findSCO ns name => s.findSCO ns name
  | .write a n => if s.held a then s.modify (·.writeFile a n) else s
  | .setSCODisposable a => if s.held a then s.perform (setDisposable calls a) else s
  | .release a => if s.held a then s.release calls a else s
  | .removeSCO ns name rnd unlink => s.perform (findAndRemoveSCO_ calls ns name rnd false unlink)
  | .prepareCleanup chosen =>
    if s.cache.to_delete.isEmpty then s.modify (chosen.foldl SCOCache.choose ·) else s
  | .cleanup => s.perform (eraseSCOSetIterator_ calls false)
  | .offline mp => s.modify (·.offlineMountPoint_ calls mp)
  | .addNamespace ns => s.manage ns (addNamespace calls ns)
  | .removeNamespace ns => if s.cache.to_delete.isEmpty then s.manage ns (removeNamespace calls ns) else s
  | .disableNamespace ns => s.manage ns (disableNamespace calls ns)
  | .enableNamespace ns => s.manage ns (enableNamespace calls ns)
  | .choke mp choking => s.modify fun c => c.setMountPoint mp { c.mountPoint mp with choking_ := choking }
  | .restart mps => { cache := after (restart mps) s.cache, fetches := [] }

end VolumeDriver.Cache
