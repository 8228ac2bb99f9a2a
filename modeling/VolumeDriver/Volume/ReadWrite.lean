/-
`Volume::read` and `Volume::write` with their data: the bounce buffer of an unaligned request, the
chunks of a write, the locations in the metadata, the SCOs and the cluster cache. The volume is not
a clone and takes requests (`Access` has the checks for that); its DTL does not fail.
-/
import VolumeDriver.DataStore.ReadClusters
import VolumeDriver.Lib.Bytes
import VolumeDriver.Lib.Memory
import VolumeDriver.Volume.Access
import VolumeDriver.Volume.ClusterCache
import VolumeDriver.Volume.Write

namespace VolumeDriver

open Lib Access

namespace ReadWrite

/-- What does not change. -/
structure Config where
  volume : Access.Volume
  sums : Sums Bytes
  /-- The entries that the DTL takes at once. -/
  max_entries : Nat
  mode : ClusterCacheMode
  behaviour : ClusterCacheBehaviour
  /-- The clusters of the cluster cache are as large as those of the volume. -/
  same_cluster_size : Bool
  surroundings : ClusterCache.Surroundings Bytes := {}

/-- The hash in `make_cluster_location_and_hash`. -/
def Config.weed (cfg : Config) (data : Bytes) : Weed :=
  match cfg.mode with
  | .ContentBased => cfg.sums.md5 data
  | .LocationBased => 0

/-- A volume with the cluster cache. -/
structure Disk where
  volume : Volume Bytes
  clusterCache : ClusterCache Bytes := {}

/-- Calls on a volume. -/
abbrev M := EStateM VolumeExn Disk

/-- A step that leaves the cluster cache alone. -/
def onVolume {α : Type} (m : Volume.M Bytes α) : M α := fun s =>
  match m s.volume with
  | .ok a v => .ok a { s with volume := v }
  | .error e v => .error e { s with volume := v }

theorem onVolume_ok {α : Type} {m : Volume.M Bytes α} {s : Disk} {a : α} {v : Volume Bytes} (h : m s.volume = .ok a v) :
    onVolume m s = .ok a { s with volume := v } := by
  unfold onVolume
  rw [h]

variable (cfg : Config)

/-- `validateIOLength`. -/
def validateIOLength (off len : Nat) : M Unit :=
  if (off + len) % 2 ^ 64 ≤ cfg.volume.getSize then pure ()
  else throw (.exn (.ioException "Access beyond end of volume"))

/-- `validateIOAlignment`. -/
def validateIOAlignment (off len : Nat) : M Unit := do
  if len % cfg.volume.cs ≠ 0 then
    throw (.exn (.ioException "Length not aligned to cluster size"))
  if off % cfg.volume.cs ≠ 0 then
    throw (.exn (.ioException "Request address not aligned to cluster"))

/-! ## The cluster cache -/

variable (ca : ClusterAddress)

/-- `add_to_cluster_cache_`. -/
def add_to_cluster_cache_ (weed : Weed) (data : Bytes) : M Unit :=
  modify fun s =>
    if cfg.same_cluster_size then
      { s with clusterCache := s.clusterCache.add cfg.sums.md5 cfg.surroundings cfg.mode ca weed data }
    else s

/-- `purge_from_cluster_cache_`. -/
def purge_from_cluster_cache_ : M Unit :=
  modify fun s =>
    if cfg.same_cluster_size then
      { s with clusterCache := s.clusterCache.invalidate cfg.sums.md5 cfg.surroundings cfg.mode ca }
    else s

/-- `find_in_cluster_cache_`. -/
def find_in_cluster_cache_ (weed : Weed) : M (Option Bytes) := do
  let s ← get
  if cfg.same_cluster_size then
    set { s with clusterCache := s.clusterCache.elapse cfg.sums.md5 cfg.surroundings }
    pure (s.clusterCache.read cfg.sums.md5 cfg.surroundings cfg.mode ca weed)
  else
    pure none

/-! ## Reading -/

/-- What the first loop of `readClusters_` finds out about a cluster. -/
inductive Found
  | cluster (data : Bytes)
  /-- The cluster is in a SCO. -/
  | descriptor (loc_and_hash : ClusterLocationAndHash)

/-- A turn of the first loop of `readClusters_`. -/
def lookup : M Found := do
  let s ← get
  if (s.volume.metaDataStore_ ca).isNull then
    pure (.cluster (List.replicate cfg.volume.cs 0))
  else
    match ← find_in_cluster_cache_ cfg ca (s.volume.metaDataStore_ ca).weed with
    | some data => pure (.cluster data)
    | none => pure (.descriptor (s.volume.metaDataStore_ ca))

/-- The loop. -/
def lookups : List ClusterAddress → M (List Found)
  | [] => pure []
  | ca :: cas => do
    let found ← lookup cfg ca
    let rest ← lookups cas
    pure (found :: rest)

/-- The clusters that are left to the data store, from place `index` of the buffer on. -/
def read_descriptors : Nat → List ClusterAddress → List Found → List ClusterReadDescriptor
  | index, _ :: cas, .cluster _ :: found => read_descriptors (index + 1) cas found
  | index, ca :: cas, .descriptor l :: found => ⟨l, ca, index⟩ :: read_descriptors (index + 1) cas found
  | _, _, _ => []

/-- The buffer, with what the data store read in the places that were left. -/
def fill : List Found → List Bytes → List Bytes
  | .cluster data :: found, read => data :: fill found read
  | .descriptor _ :: found, data :: read => data :: fill found read
  | _, _ => []

/-- The last loop of `readClusters_`. -/
def add_all_to_cluster_cache_ : List (ClusterReadDescriptor × Bytes) → M Unit
  | [] => pure ()
  | (clrd, data) :: rest => do
    add_to_cluster_cache_ cfg clrd.ca clrd.loc_and_hash.weed data
    add_all_to_cluster_cache_ rest

/-- `readClusters_`. -/
def readClusters_ (addr bufsize : Nat) : M (List Bytes) := do
  let found ← lookups cfg (clusterAddresses cfg.volume addr bufsize)
  let descs := read_descriptors 0 (clusterAddresses cfg.volume addr bufsize) found
  let read ← onVolume (Volume.ds (DataStoreNG.readClusters descs))
  if cfg.behaviour ≠ .NoCache then
    add_all_to_cluster_cache_ cfg (descs.zip read)
  pure (fill found read)

/-- The request covers whole clusters. -/
def Aligned (off len : Nat) : Prop :=
  aligned_off cfg.volume off = off ∧ aligned_len cfg.volume off len = len

instance (off len : Nat) : Decidable (Aligned cfg off len) := inferInstanceAs (Decidable (_ ∧ _))

/-- `Volume::read`. -/
def read (off len : Nat) : M Bytes := do
  validateIOLength cfg off len
  validateIOAlignment cfg (aligned_off cfg.volume off) (aligned_len cfg.volume off len)
  let clusters ← readClusters_ cfg (aligned_off cfg.volume off) (aligned_len cfg.volume off len)
  if Aligned cfg off len then
    pure clusters.flatten
  else
    pure ((clusters.flatten.drop (off % cfg.volume.cs)).take len)

/-! ## Writing -/

/-- The metadata and the cluster cache of consecutive clusters. -/
def recordClusters : ClusterAddress → List (ClusterLocation × Bytes) → M Unit
  | _, [] => pure ()
  | ca, (loc, data) :: rest => do
    onVolume (Volume.writeClusterMetaData_ ca ⟨loc, cfg.weed data⟩)
    if cfg.behaviour = .CacheOnWrite then
      add_to_cluster_cache_ cfg ca (cfg.weed data) data
    else if cfg.mode = .LocationBased then
      purge_from_cluster_cache_ cfg ca
    recordClusters (ca + 1) rest

/-- `writeClusters_`. -/
def writeClusters_ (buf : List Bytes) : M Unit := do
  let locs ← onVolume (Volume.handOut buf)
  recordClusters cfg ca (locs.zip buf)
  onVolume (Volume.rollover cfg.sums)

/-- The loop of `write_aligned_`, in clusters. -/
def writeChunks : Nat → ClusterAddress → List Bytes → M Unit
  | 0, _, _ => pure ()
  | turns + 1, ca, buf => do
    let s ← get
    if buf ≠ [] then
      onVolume (Volume.verify (0 < cfg.max_entries) "dtl_cap > 0")
      let chunk := min buf.length (min cfg.max_entries s.volume.dataStore_.getRemainingSCOCapacity)
      writeClusters_ cfg ca (buf.take chunk)
      writeChunks turns (ca + chunk) (buf.drop chunk)

/-- At most every other turn finds a full SCO and writes nothing. -/
def write_aligned_ (off : Nat) (buf : Bytes) : M Unit := do
  validateIOAlignment cfg off buf.length
  writeChunks cfg (2 * (buf.length / cfg.volume.cs)) (addr2CA cfg.volume off)
    (chunks cfg.volume.cs (buf.length / cfg.volume.cs) buf)

/-- `Volume::write`. -/
def write (off : Nat) (buf : Bytes) : M Unit := do
  validateIOLength cfg off buf.length
  if Aligned cfg off buf.length then
    write_aligned_ cfg (aligned_off cfg.volume off) buf
  else do
    let bounce_buf ← read cfg (aligned_off cfg.volume off) (aligned_len cfg.volume off buf.length)
    write_aligned_ cfg (aligned_off cfg.volume off) (overwrite bounce_buf (off % cfg.volume.cs) buf)

/-! ## Runs -/

/-- The calls. -/
inductive Action
  | read (off len : Nat)
  | write (off : Nat) (buf : Bytes)
  deriving DecidableEq, Repr

/-- The bytes that a read returns. -/
def Action.exec : Action → M Bytes
  | .read off len => ReadWrite.read cfg off len
  | .write off buf => do
    ReadWrite.write cfg off buf
    pure []

/-- The last value written to each byte. -/
def Action.remember (memory : Nat → UInt8) : Action → Nat → UInt8
  | .read _ _ => memory
  | .write off buf => store memory off buf

/-- A new volume: nothing has been written. -/
def init (sco_mult : Nat) : Disk where
  volume :=
    { dataStore_ := { sco_mult_ := sco_mult }, cluster_locations_ := sco_mult, maxTLogEntries_ := 20 * sco_mult }

/-- A step of the volume, beside the values that it should hold. -/
def step (s : Disk × (Nat → UInt8)) (a : Action) : Disk × (Nat → UInt8) := (after (a.exec cfg) s.1, a.remember s.2)

end ReadWrite

end VolumeDriver
