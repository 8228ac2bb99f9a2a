/-
Replaying a cluster of the DTL (`Volume::replayClusterFromFailOverCache_`, the function that
`replayFOC_` hands to `getEntries`), the end of a replay, and what `setFailOverCacheConfig_` does to
the data store and the TLogs.
-/
import VolumeDriver.Volume.Write
import VolumeDriver.DataStore.Consistent

namespace VolumeDriver

/-- A cluster in the DTL: its address, its location and its data. -/
structure DtlEntry (D : Type) where
  ca : ClusterAddress
  loc : ClusterLocation
  cluster : D
  deriving DecidableEq

namespace Volume

variable {D : Type} (sums : Sums D)

/-- The checksum of a SCO that was rolled over, if there is one, goes to the TLog. -/
def addRollover : Option (List D) → M D Unit
  | none => pure ()
  | some cs => addSCOCRC sums cs

/-- Offset 0 starts a new SCO. -/
def forcedRollover (loc : ClusterLocation) : M D (Option (List D)) :=
  if loc.offset = 0 then ds DataStoreNG.finalizeCurrentSCO else pure none

/-- `replayClusterFromFailOverCache_`. -/
def replayClusterFromFailOverCache_ (e : DtlEntry D) : M D Unit := do
  let forced_rollover ← forcedRollover e.loc
  ds (DataStoreNG.writeClusterToLocation e.cluster e.loc)
  addRollover sums forced_rollover
  writeClusterMetaData_ e.ca ⟨e.loc, sums.md5 e.cluster⟩

/-- A `TransientException` makes for another attempt, the last one goes on to the caller. -/
def replayEntry (e : DtlEntry D) : Nat → M D Unit
  | 0 => throw .transientException
  | attempts + 1 =>
    tryCatch (replayClusterFromFailOverCache_ sums e) fun x =>
      if x = .transientException ∧ attempts ≠ 0 then replayEntry e attempts else throw x

/-- The end of `replayFOC_`: the last SCO is finalised, and the TLog closed if it has entries. -/
def finishReplay : M D Unit := do
  let cs ← ds DataStoreNG.finalizeCurrentSCO
  let v ← get
  if v.currentTLogHasData = true then
    closeTLogWith sums cs

/-- The part of `setFailOverCacheConfig_` that concerns the data store and the TLogs. -/
def rolloverForDtl : M D Unit := do
  let cs ← ds DataStoreNG.finalizeCurrentSCO
  closeTLogWith sums cs

end Volume

end VolumeDriver
