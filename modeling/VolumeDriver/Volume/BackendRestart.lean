/-
Restarting a volume from its backend (`Volume::backend_restart`): the TLogs on the backend are
replayed on the metadata store, then the clusters of the DTL behind the last SCO on the backend
are written again, each to its own location (`Volume::replayFOC_`).
-/
import VolumeDriver.Dtl.Contiguous
import VolumeDriver.MetaData.CloneTLogs
import VolumeDriver.Volume.TLogRuns

namespace VolumeDriver

open Lib

/-! ## The restart -/

namespace SCO

/-- `SCO::asBool`. -/
def asBool (s : SCO) : Bool := s.number != 0 || s.version != 0 || s.cloneID != 0

end SCO

namespace DataStoreNG

variable {D : Type}

/-- `scanSCOsForBackendRestart_` removes the SCOs behind the backend from the SCO cache. -/
def behindBackend (lastSCOInBackend : Nat) (d : DataStoreNG D) : DataStoreNG D :=
  { d with
    currentClusterLoc_ := ⟨⟨(lastSCOInBackend + 1) % 2 ^ 32, 0, 0⟩, 0⟩
    scos := fun n => if lastSCOInBackend < n then [] else d.scos n }

/-- `DataStoreNG::backend_restart`. -/
def backend_restart (lastSCOInBackend : Nat) : M D Unit := do
  let d ← get
  verify (d.current_open = false) "currentSCO_() == 0"
  set (d.behindBackend lastSCOInBackend)
  try
    updateCurrentSCO_
  catch
    | .transientException => pure ()
    | e => throw e

end DataStoreNG

/-- The replay of the TLogs of a chain of clones, on the map that a metadata store implements. -/
def replayClones (nsidmap : NSIDMap) : Option SCOCloneID → ClusterMap → CloneTLogs →
    Except Exn ClusterMap
  | _, m, [] => pure m
  | prev_cloneid, m, (cloneid, tlogs) :: ctl => do
    VERIFY (∀ prev ∈ prev_cloneid, cloneid < prev) "prev_cloneid > cloneid"
    let r ← CombinedTLogReader (nsidmap cloneid) tlogs
    let _ ← r.mapM (·.clusterAddress)
    replayClones nsidmap (some cloneid) (replay m (CachedMetaDataStore.shown (cloneBindings cloneid r))) ctl

/-- The sizes of a volume's blocks and clusters. -/
structure Geometry where
  lba_size : Nat
  cluster_mult : Nat

namespace Geometry

/-- The size of a cluster. -/
def clusterSize (g : Geometry) : Nat := g.lba_size * g.cluster_mult

/-- The byte address of an entry. -/
def addr (g : Geometry) (e : CacheEntry) : Nat := e.lba_ * g.lba_size % 2 ^ 64

/-- An entry of the DTL as it is replayed. -/
def dtlEntry (g : Geometry) (e : CacheEntry) : DtlEntry Bytes := ⟨g.addr e / g.clusterSize, e.cli_, e.data⟩

end Geometry

namespace Volume

variable (sums : Sums Bytes) (g : Geometry)

/-- `validateIOAlignment`. -/
def validateIOAlignment (off len : Nat) : M Bytes Unit := do
  if len % g.clusterSize ≠ 0 then
    throw (.exn (.ioException "Length not aligned to cluster size"))
  if off % g.clusterSize ≠ 0 then
    throw (.exn (.ioException "Request address not aligned to cluster"))

/-- The function that `replayFOC_` hands to `getEntries`. -/
def replayCacheEntry (e : CacheEntry) : M Bytes Unit := do
  verify (e.data.length = g.clusterSize) "size == static_cast<size_t>(clusterSize_)"
  validateIOAlignment g (g.addr e) e.data.length
  replayEntry sums (g.dtlEntry e) 256

/-- `replayFOC_`. -/
def replayFOC_ (foc : Backend) : M Bytes Unit :=
  tryCatch
    (do foc.getEntries (pure ()) (replayCacheEntry sums g)
        finishReplay sums)
    fun _ => throw (.exn (.ioException "Problem with failover cache "))

/-- What the backend has is removed from the DTL; a failure to do so is ignored. -/
def trimmed (lastSCOInBackend : Nat) (cache : Backend) : Backend :=
  if lastSCOInBackend ≠ 0 then after (Backend.removeUpTo ⟨lastSCOInBackend, 0, 0⟩) cache else cache

/-- The range test on the SCOs of the DTL. -/
def replayDtl (lastSCOInBackend : Nat) (cache : Backend) : M Bytes Backend :=
  if cache.getSCORange.1.asBool = false then do
    verify (cache.getSCORange.2.asBool = false) "not youngest.asBool()"
    pure cache
  else if cache.getSCORange.1.number ≤ (lastSCOInBackend + 1) % 2 ^ 32 ∧
      lastSCOInBackend < cache.getSCORange.2.number then do
    replayFOC_ sums g (trimmed lastSCOInBackend cache)
    pure { trimmed lastSCOInBackend cache with first_command_must_be_getEntries := false }
  else
    pure cache.clear

/-- Returns the DTL server's cache as the restart leaves it. -/
def backend_restart (nsidmap : NSIDMap) (restartTLogs : CloneTLogs) (lastSCOInBackend : Nat) (cache : Backend) :
    M Bytes Backend := do
  ds (DataStoreNG.backend_restart lastSCOInBackend)
  let v ← get
  let m ← make (replayClones nsidmap none v.metaDataStore_ restartTLogs)
  set { v with metaDataStore_ := m }
  replayDtl sums g lastSCOInBackend cache.setFirstCommandMustBeGetEntries

end Volume

end VolumeDriver
