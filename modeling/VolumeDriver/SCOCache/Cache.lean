/-
The SCO cache as a whole (`SCOCache`, `SCOCacheMountPoint`, `SCOCacheNamespace`, `CachedSCO`): the
mount points with the space used on them, the namespaces with their entries, and the cached SCOs,
which are shared objects. A `CachedSCO` is deleted when the last pointer to it is gone, and only
then is its file removed and its space given back, if it was marked for that. Access probabilities,
limits of namespaces and error counts are left out; how calls of the file system end is given with
each call.
-/
import Mathlib.Data.Finset.Basic
import VolumeDriver.Lib.Assoc
import VolumeDriver.Lib.Triple
import VolumeDriver.Types

namespace VolumeDriver.Cache

open Lib

/-- A namespace of the backend. -/
abbrev Namespace := String

/-- Which mount point object. -/
abbrev SCOCacheMountPointPtr := Nat

/-- Which `CachedSCO` object. -/
abbrev CachedSCOPtr := Nat

instance : LT SCO := ⟨fun a b => SCO.cmp a b = .lt⟩

instance : DecidableLT SCO := fun a b => inferInstanceAs (Decidable (SCO.cmp a b = .lt))

/-! ## Errors -/

/-- The errors of the system that an exception carries. -/
inductive Errno
  | ENOENT
  | EBUSY
  | EEXIST
  | EINVAL
  deriving DecidableEq, Repr

/-- What an `IOException` names. -/
inductive Subject
  | path (p : String)
  | nspace (ns : Namespace)
  | sco (ns : Namespace) (name : SCO)
  deriving DecidableEq, Repr

/-- What is thrown. -/
inductive Error
  | IOException (what : String) (subject : Subject) (errno : Option Errno)
  | TransientException (what : String)
  | SCOCacheNoMountPointsException
  /-- A `VERIFY` that does not hold. -/
  | assertion
  /-- A call of the file system threw. -/
  | filesystem
  deriving DecidableEq, Repr

/-! ## The objects -/

/-- A mount point. No file system holds `2 ^ 63` bytes or more. -/
structure SCOCacheMountPoint where
  path_ : String
  capacity_ : Nat
  fits : capacity_ < 2 ^ 63
  used_ : Nat := 0
  offline_ : Bool := false
  choking_ : Bool := false

/-- A SCO in the cache. -/
structure CachedSCO where
  nspace_ : Namespace
  scoName_ : SCO
  mntPoint_ : SCOCacheMountPointPtr
  size_ : Nat
  disposable_ : Bool := false
  unlink_on_destruction_ : Bool := false
  /-- Everything is in the file: the SCO was created by the writer, found by a scan, or its fetch
  has ended well. No code looks at this. -/
  complete : Bool := false
  deriving DecidableEq, Repr

/-- An entry; a blocked one is being fetched. -/
structure SCOCacheNamespaceEntry where
  sco_ : CachedSCOPtr
  blocked_ : Bool
  deriving DecidableEq, Repr

/-- `SCOCacheNamespaceEntry::setBlocked`. -/
def SCOCacheNamespaceEntry.setBlocked (e : SCOCacheNamespaceEntry) (blocked : Bool) : SCOCacheNamespaceEntry :=
  { e with blocked_ := blocked }

/-- A SCO's file; the sticky bit says that the SCO is disposable. -/
structure File where
  st_size : Nat
  sticky : Bool := false
  deriving DecidableEq, Repr

/-- The entries of a namespace. -/
abbrev SCOCacheNamespace := Assoc SCO SCOCacheNamespaceEntry

/-- The cache. -/
structure SCOCache where
  mountPoint : SCOCacheMountPointPtr → SCOCacheMountPoint
  mountPoints_ : List SCOCacheMountPointPtr
  /-- None is `mountPoints_.end()`. -/
  currentMountPoint_ : Option SCOCacheMountPointPtr
  nsMap_ : Assoc Namespace SCOCacheNamespace := []
  sco : CachedSCOPtr → CachedSCO
  /-- The `CachedSCO`s that were not deleted. -/
  live : Finset CachedSCOPtr := ∅
  /-- The pointers to them that are held outside of the namespaces. -/
  references : List CachedSCOPtr := []
  /-- The next addresses. -/
  next : CachedSCOPtr := 0
  nextMountPoint : SCOCacheMountPointPtr := 0
  /-- The SCOs a clean-up has yet to remove; a deleted one leaves this set by itself. -/
  to_delete : List CachedSCOPtr := []
  /-- The directories of the namespaces on a mount point. -/
  directories : SCOCacheMountPointPtr → Assoc Namespace (Assoc SCO File) := fun _ => []
  /-- A `VERIFY` of `updateUsedSize_` did not hold. -/
  miscounted : Bool := false

/-- How the calls of the file system end. -/
structure Calls where
  stat_fails : Bool := false
  chmod_fails : Bool := false
  rename_fails : Bool := false
  exists_fails : Namespace → Bool := fun _ => false
  setErrorCount_fails : SCOCacheMountPointPtr → Bool := fun _ => false

/-- Calls that may throw. -/
abbrev M := EStateM Error SCOCache

namespace SCOCache

variable (c : SCOCache)

/-- `findNamespace_`. -/
def findNamespace_ (ns : Namespace) : Option SCOCacheNamespace := c.nsMap_.find ns

/-- The entry of a SCO. -/
def findEntry (ns : Namespace) (name : SCO) : Option SCOCacheNamespaceEntry :=
  (c.findNamespace_ ns).bind (·.find name)

variable (a : CachedSCOPtr)

/-- The entry's pointer and those held outside. -/
def use_count : Nat := 1 + c.references.count a

/-- A SCO has its entry under its own name. -/
def hasEntry : Bool :=
  (c.findEntry (c.sco a).nspace_ (c.sco a).scoName_).any fun e => e.sco_ = a

/-- The file of a SCO. -/
def file : Option File :=
  ((c.directories (c.sco a).mntPoint_).find (c.sco a).nspace_).bind (·.find (c.sco a).scoName_)

/-- The cache with another mount point. -/
def setMountPoint (mp : SCOCacheMountPointPtr) (m : SCOCacheMountPoint) : SCOCache :=
  { c with mountPoint := fun x => if x = mp then m else c.mountPoint x }

/-- The cache with another SCO. -/
def setSCO (o : CachedSCO) : SCOCache :=
  { c with sco := fun x => if x = a then o else c.sco x }

/-- The cache with other entries in a namespace. -/
def setNamespace (ns : Namespace) (entries : SCOCacheNamespace) : SCOCache :=
  { c with nsMap_ := c.nsMap_.set ns entries }

/-- The cache with other files in a directory. -/
def setDirectory (mp : SCOCacheMountPointPtr) (ns : Namespace) (files : Assoc SCO File) : SCOCache :=
  { c with directories := fun x => if x = mp then (c.directories mp).set ns files else c.directories x }

/-- The file of a SCO, if its namespace has a directory. -/
def setFile (f : Option File) : SCOCache :=
  let o := c.sco a
  match (c.directories o.mntPoint_).find o.nspace_ with
  | none => c
  | some files => c.setDirectory o.mntPoint_ o.nspace_ (match f with
      | some f => files.set o.scoName_ f
      | none => files.erase o.scoName_)

section

variable (c : SCOCache) (a : CachedSCOPtr) (f : Option File)

/-- A file is in a directory, and nothing else changes with it. -/
theorem setFile_eq : ∃ d, c.setFile a f = { c with directories := d } := by
  unfold setFile
  dsimp only
  split
  · exact ⟨c.directories, rfl⟩
  · exact ⟨_, rfl⟩

@[simp] theorem setFile_sco : (c.setFile a f).sco = c.sco := by
  obtain ⟨d, h⟩ := c.setFile_eq a f
  rw [h]

@[simp] theorem setFile_nsMap_ : (c.setFile a f).nsMap_ = c.nsMap_ := by
  obtain ⟨d, h⟩ := c.setFile_eq a f
  rw [h]

@[simp] theorem setFile_mountPoint : (c.setFile a f).mountPoint = c.mountPoint := by
  obtain ⟨d, h⟩ := c.setFile_eq a f
  rw [h]

@[simp] theorem setFile_mountPoints_ : (c.setFile a f).mountPoints_ = c.mountPoints_ := by
  obtain ⟨d, h⟩ := c.setFile_eq a f
  rw [h]

@[simp] theorem setFile_live : (c.setFile a f).live = c.live := by
  obtain ⟨d, h⟩ := c.setFile_eq a f
  rw [h]

@[simp] theorem setFile_references : (c.setFile a f).references = c.references := by
  obtain ⟨d, h⟩ := c.setFile_eq a f
  rw [h]

@[simp] theorem setFile_next : (c.setFile a f).next = c.next := by
  obtain ⟨d, h⟩ := c.setFile_eq a f
  rw [h]

end

/-- The cache with an entry more. -/
def setEntry (ns : Namespace) (name : SCO) (e : SCOCacheNamespaceEntry) : SCOCache :=
  c.setNamespace ns (((c.findNamespace_ ns).getD []).set name e)

/-- The cache without an entry. -/
def eraseEntry (ns : Namespace) (name : SCO) : SCOCache :=
  c.setNamespace ns (((c.findNamespace_ ns).getD []).erase name)

end SCOCache

/-! ## Space -/

/-- A failed `VERIFY` of `updateUsedSize_`. -/
def miscount : M Unit := do
  modify fun c => { c with miscounted := true }
  throw .assertion

/-- `used_` is an unsigned number of 64 bits, the difference a signed one. -/
def updateUsedSize (mp : SCOCacheMountPointPtr) (diff : Int) : M Unit := do
  let m := (← get).mountPoint mp
  if 0 ≤ diff then
    if (m.used_ + diff.toNat) % 2 ^ 64 ≤ m.capacity_ then
      modify (·.setMountPoint mp { m with used_ := (m.used_ + diff.toNat) % 2 ^ 64 })
    else miscount
  else
    if (-diff).toNat ≤ m.used_ then
      modify (·.setMountPoint mp { m with used_ := m.used_ - (-diff).toNat })
    else miscount

/-- An unsigned number of 64 bits passed as a signed one. -/
def int64 (n : Int) : Int := n.bmod (2 ^ 64)

/-! ## Cached SCOs -/

variable (calls : Calls)

variable (a : CachedSCOPtr)

/-- The file is moved out of the namespace, to be removed in the background. -/
def addToGarbage : M Unit := do
  let c ← get
  if calls.rename_fails ∨ c.file a = none then throw .filesystem else set (c.setFile a none)

/-- What the destructor does with the file and the space of a SCO that was marked for it. -/
def unlink : M Unit := do
  addToGarbage calls a
  let o := (← get).sco a
  updateUsedSize o.mntPoint_ (int64 (-o.size_))

/-- `~CachedSCO`. Whatever goes wrong is logged and ignored. -/
def SCOCache.destroy (c : SCOCache) : SCOCache :=
  let c := { c with live := c.live.erase a, to_delete := c.to_delete.erase a }
  if (c.sco a).unlink_on_destruction_ then after (unlink calls a) c else c

/-- A pointer to the SCO has gone out of scope. -/
def SCOCache.collect (c : SCOCache) : SCOCache :=
  if a ∈ c.live ∧ a ∉ c.references ∧ c.hasEntry a = false then c.destroy calls a else c

/-- A new object, to which the caller has the only pointer. -/
def allocate (o : CachedSCO) : M CachedSCOPtr := do
  let c ← get
  set { c.setSCO c.next o with live := insert c.next c.live, next := c.next + 1 }
  return c.next

variable (ns : Namespace)

/-- `CachedSCO::CachedSCO` for a new SCO, which is charged at once. -/
def newCachedSCO (name : SCO) (mp : SCOCacheMountPointPtr) (maxSize : Nat) (complete : Bool) :
    M CachedSCOPtr := do
  if maxSize = 0 then throw (.IOException "attempt to create sco with capacity 0" (.sco ns name) (some .EINVAL))
  else do
    updateUsedSize mp (int64 maxSize)
    allocate { nspace_ := ns, scoName_ := name, mntPoint_ := mp, size_ := maxSize, complete := complete }

/-- `CachedSCO::CachedSCO` for a file a scan has found; it was charged when the mount point was. -/
def scannedCachedSCO (name : SCO) (mp : SCOCacheMountPointPtr) (f : File) : M CachedSCOPtr :=
  allocate
    { nspace_ := ns, scoName_ := name, mntPoint_ := mp, size_ := f.st_size, disposable_ := f.sticky, complete := true }

/-- `CachedSCO::setDisposable`. The sticky bit is toggled, and the charge becomes the file's size. -/
def setDisposable : M Unit := do
  let c ← get
  let o := c.sco a
  if (c.mountPoint o.mntPoint_).offline_ then
    throw (.IOException "mountpoint is offline" (.path (c.mountPoint o.mntPoint_).path_) none)
  else match c.file a with
    | none => throw (.IOException "Failed to stat" (.sco o.nspace_ o.scoName_) none)
    | some st =>
      if calls.stat_fails then throw (.IOException "Failed to stat" (.sco o.nspace_ o.scoName_) none)
      else if st.st_size = 0 then
        throw (.IOException "attempt to set empty SCO disposable" (.sco o.nspace_ o.scoName_) none)
      else if calls.chmod_fails then throw (.IOException "Failed to chmod" (.sco o.nspace_ o.scoName_) none)
      else do
        set ((c.setFile a (some { st with sticky := !st.sticky })).setSCO a
          { o with size_ := st.st_size, disposable_ := true })
        updateUsedSize o.mntPoint_ (int64 (st.st_size - o.size_))

/-! ## Entries -/

/-- A namespace must exist. -/
def findNamespace_throw_ : M SCOCacheNamespace := do
  match (← get).findNamespace_ ns with
  | none => throw (.IOException "namespace does not exist" (.nspace ns) none)
  | some entries => return entries

/-- `insertSCO_`: no name has two entries. -/
def insertSCO_ (blocked : Bool) : M Unit := do
  let c ← get
  let o := c.sco a
  match c.findNamespace_ o.nspace_ with
  | none => throw .assertion
  | some entries =>
    if (entries.find o.scoName_).isSome then throw .assertion
    else set (c.setEntry o.nspace_ o.scoName_ { sco_ := a, blocked_ := blocked })

/-- `findSCO_`. -/
def findSCO_ (name : SCO) : M (Option CachedSCOPtr) := do
  let entries ← findNamespace_throw_ ns
  match entries.find name with
  | none => return none
  | some e =>
    if e.blocked_ then throw (.TransientException "sco is currently being fetched") else return some e.sco_

/-- The entry of a name goes, and with it its pointer. -/
def SCOCache.dropEntry (name : SCO) (c : SCOCache) : SCOCache :=
  match c.findEntry ns name with
  | none => c
  | some e => (c.eraseEntry ns name).collect calls e.sco_

/-- What holds the pointer to `a` while `f` runs. -/
def SCOCache.holding (f : SCOCache → SCOCache) (c : SCOCache) : SCOCache :=
  let c := f { c with references := a :: c.references }
  { c with references := c.references.erase a }.collect calls a

/-- `CachedSCO::remove`. -/
def SCOCache.remove (c : SCOCache) (a : CachedSCOPtr) : SCOCache :=
  c.setSCO a { c.sco a with unlink_on_destruction_ := true }

/-- `removeSCO_` erases the entry of the SCO's name. The pointer that was passed is gone when the
caller is done. -/
def removeSCO_ (unlink : Bool) : M Unit := do
  let o := (← get).sco a
  let _ ← findNamespace_throw_ o.nspace_
  modify fun c => c.holding calls a fun c =>
    let c := c.dropEntry calls o.nspace_ o.scoName_
    if unlink then c.remove a else c

/-- `findAndRemoveSCO_`. -/
def findAndRemoveSCO_ (name : SCO)
    (removeNonDisposable mustBeBlocked unlink : Bool) : M Unit := do
  let entries ← findNamespace_throw_ ns
  match entries.find name with
  | none => throw (.IOException "no such entry" (.sco ns name) (some .ENOENT))
  | some e =>
    if !mustBeBlocked && e.blocked_ then
      throw (.TransientException "Not removing a SCO that's concurrently being retrieved")
    if !((← get).sco e.sco_).disposable_ && !removeNonDisposable then
      throw (.IOException "attempt to remove non-disposable SCO" (.sco ns name) (some .EBUSY))
    removeSCO_ calls e.sco_ unlink

/-! ## Mount points -/

/-- There is room, in unsigned numbers of 64 bits. -/
def SCOCache.hasRoom (c : SCOCache) (scoSize : Nat) (mp : SCOCacheMountPointPtr) : Bool :=
  ((c.mountPoint mp).used_ + scoSize) % 2 ^ 64 ≤ (c.mountPoint mp).capacity_

/-- The mount points behind this one, and then those before it. -/
def SCOCache.others (c : SCOCache) (mp : SCOCacheMountPointPtr) : List SCOCacheMountPointPtr :=
  (c.mountPoints_.dropWhile (· ≠ mp)).tail ++ c.mountPoints_.takeWhile (· ≠ mp)

/-- The next mount point that does not choke; if all do, the next one with room. -/
def SCOCache.candidate (c : SCOCache) (scoSize : Nat) (cur : SCOCacheMountPointPtr) : SCOCacheMountPointPtr :=
  let unchoked := ((c.others cur).find? fun mp => !(c.mountPoint mp).choking_).getD cur
  if unchoked = cur ∧ (c.mountPoint cur).choking_ then ((c.others cur).find? (c.hasRoom scoSize)).getD cur else unchoked

/-- `getWriteMountPoint_`. -/
def getWriteMountPoint_ (scoSize : Nat) : M SCOCacheMountPointPtr := do
  let c ← get
  match c.currentMountPoint_ with
  | none => throw .SCOCacheNoMountPointsException
  | some cur =>
    if c.hasRoom scoSize (c.candidate scoSize cur) then do
      set { c with currentMountPoint_ := some (c.candidate scoSize cur) }
      return c.candidate scoSize cur
    else throw (.TransientException "cache full")

/-- `createSCO_`. A SCO that is created blocked is yet to be fetched. -/
def createSCO_ (name : SCO) (scoSize : Nat) (blocked : Bool) : M CachedSCOPtr := do
  let entries ← findNamespace_throw_ ns
  if (entries.find name).isSome then
    throw (.IOException "attempt to create existing SCO" (.sco ns name) (some .EEXIST))
  else do
    let mp ← getWriteMountPoint_ scoSize
    let a ← newCachedSCO ns name mp scoSize !blocked
    insertSCO_ a blocked
    return a

namespace SCOCache

/-- The names of all SCOs. -/
def names (c : SCOCache) : List (Namespace × SCO) := c.nsMap_.flatMap fun p => p.2.map fun q => (p.1, q.1)

/-- The entry goes if its SCO is on the mount point. -/
def dropResident (calls : Calls) (mp : SCOCacheMountPointPtr) (c : SCOCache) (p : Namespace × SCO) : SCOCache :=
  match c.findEntry p.1 p.2 with
  | none => c
  | some e => if (c.sco e.sco_).mntPoint_ = mp then c.dropEntry calls p.1 p.2 else c

/-- The mount point is offline. -/
def setOffline (c : SCOCache) (mp : SCOCacheMountPointPtr) : SCOCache :=
  c.setMountPoint mp { c.mountPoint mp with offline_ := true }

/-- An offlined mount point goes, and the entries of the SCOs on it. No file is touched. -/
def dropMountPoint (calls : Calls) (c : SCOCache) (mp : SCOCacheMountPointPtr) : SCOCache :=
  let c := { c.setOffline mp with mountPoints_ := c.mountPoints_.filter (· ≠ mp) }
  let c := c.names.foldl (dropResident calls mp) c
  { c with currentMountPoint_ := c.mountPoints_.head? }

/-- A mount point that does not take the new error count is offlined too. -/
def bumpMountPointErrorCount_ (calls : Calls) (c : SCOCache) : SCOCache :=
  (c.mountPoints_.filter calls.setErrorCount_fails).foldl (dropMountPoint calls) c

/-- `offlineMountPoint_`. -/
def offlineMountPoint_ (calls : Calls) (mp : SCOCacheMountPointPtr) (c : SCOCache) : SCOCache :=
  if mp ∈ c.mountPoints_ then (c.dropMountPoint calls mp).bumpMountPointErrorCount_ calls else c.setOffline mp

/-- The mount point leaves the list; the current one must not be it. -/
def eraseMountPoint (c : SCOCache) (mp : SCOCacheMountPointPtr) : SCOCache :=
  { c with
    currentMountPoint_ := if c.currentMountPoint_ = some mp then
      (c.mountPoints_.dropWhile (· ≠ mp)).tail.head?.or c.mountPoints_.head? else c.currentMountPoint_
    mountPoints_ := c.mountPoints_.erase mp }

end SCOCache

/-- `reportIOError_`. -/
def reportIOError_ : M Unit :=
  modify fun c => c.offlineMountPoint_ calls (c.sco a).mntPoint_

/-! ### Removing and adding mount points -/

/-- The checks of `removeMountPoint_` on the SCOs of one namespace. -/
def checkSCOs (path : String) (mp : SCOCacheMountPointPtr) (force : Bool) : SCOCacheNamespace → M Unit
  | [] => return
  | (_, e) :: rest => do
    let c ← get
    if !force && (c.sco e.sco_).mntPoint_ = mp && !(c.sco e.sco_).disposable_ then
      throw (.IOException "cannot remove mountpoint" (.path path) (some .EBUSY))
    -- the loop has a pointer of its own
    if c.use_count e.sco_ + 1 > 2 then
      throw (.IOException "cannot remove mountpoint" (.path path) (some .EBUSY))
    checkSCOs path mp force rest

/-- The SCOs of a namespace are removed. -/
def removeSCOs (calls : Calls) : SCOCacheNamespace → M Unit
  | [] => return
  | (_, e) :: rest => do
    removeSCO_ calls e.sco_ false
    removeSCOs calls rest

/-- The loop of `removeMountPoint_` over the namespaces: all of their SCOs are removed, wherever
they reside. -/
def clearNamespaces (calls : Calls) (path : String) (mp : SCOCacheMountPointPtr) (force : Bool) :
    Assoc Namespace SCOCacheNamespace → M Unit
  | [] => return
  | (_, entries) :: rest => do
    checkSCOs path mp force entries
    removeSCOs calls entries
    clearNamespaces calls path mp force rest

/-- `removeMountPoint_`. -/
def removeMountPoint_ (path : String) (force : Bool) : M Unit := do
  let c ← get
  match c.mountPoints_.find? fun mp => (c.mountPoint mp).path_ = path with
  | none => throw (.IOException "mountpoint does not exist" (.path path) (some .ENOENT))
  | some mp =>
    if !force && c.mountPoints_.length = 1 then
      throw (.IOException "cannot remove last mountpoint" (.path path) (some .EBUSY))
    clearNamespaces calls path mp force c.nsMap_
    modify (·.eraseMountPoint mp)

/-- `SCOCache::removeMountPoint`. -/
def removeMountPoint (path : String) : M Unit := removeMountPoint_ calls path false

/-- A mount point to be added. -/
structure MountPointConfig where
  path : String
  size : Nat
  fits : size < 2 ^ 63

/-- `SCOCacheMountPoint::addNamespace`. Only that the directory cannot be created is ignored. -/
def addNamespaceTo (mp : SCOCacheMountPointPtr) (ns : Namespace) : M Unit := do
  let c ← get
  if ns = "lost+found" then throw (.IOException "invalid namespace" (.nspace ns) none)
  else if calls.exists_fails ns then throw .filesystem
  else if ((c.directories mp).find ns).isSome then
    throw (.IOException "namespace already exists" (.nspace ns) (some .EEXIST))
  else set (c.setDirectory mp ns [])

/-- The loop of `_addMountPoint` over the namespaces; the mount point is removed again if one of
them cannot be added. -/
def addNamespaces (calls : Calls) (path : String) (mp : SCOCacheMountPointPtr) : List Namespace → M Unit
  | [] => return
  | ns :: rest => do
    tryCatch (addNamespaceTo calls mp ns) fun e => do
      removeMountPoint_ calls path false
      throw e
    addNamespaces calls path mp rest

/-- The cache with a new mount point, before its namespaces are added. -/
def SCOCache.withMountPoint (c : SCOCache) (cfg : MountPointConfig) : SCOCache :=
  { c.setMountPoint c.nextMountPoint { path_ := cfg.path, capacity_ := cfg.size, fits := cfg.fits } with
    mountPoints_ := c.mountPoints_ ++ [c.nextMountPoint], nextMountPoint := c.nextMountPoint + 1 }

/-- `SCOCache::_addMountPoint`; `opened` is how the construction of the mount point ends. -/
def addMountPoint (opened : Except Error Unit) (cfg : MountPointConfig) : M Unit := do
  let c ← get
  if c.mountPoints_.any fun mp => (c.mountPoint mp).path_ = cfg.path then
    throw (.IOException "mountpoint already exists" (.path cfg.path) (some .EEXIST))
  else match opened with
    | .error e => throw e
    | .ok () => do
      set (c.withMountPoint cfg)
      addNamespaces calls cfg.path c.nextMountPoint (c.nsMap_.map (·.1))
      modify fun c => if c.mountPoints_.length = 1 then { c with currentMountPoint_ := c.mountPoints_.head? } else c

end VolumeDriver.Cache
