/-
The write path of a volume (`Volume::write_aligned_`, `writeClusters_`, `sync_`,
`scheduleBackendSync_`, `setSCOMultiplier`) with the TLogs it appends to
(`SnapshotManagement`, `TLogWriter`). TLogs are lists of entries; the metadata are a map from
cluster addresses to locations.
-/
import VolumeDriver.DataStore.DataStoreNG

namespace VolumeDriver

open Lib DataStoreNG

/-- The checksum of a SCO's clusters and of a TLog's entries, both of 32 bits, and the hash of a
cluster. -/
structure Sums (D : Type) where
  crc : List D → Nat
  tlogCrc : List Entry → Nat
  /-- The hash that a write keeps with a location: null unless the cluster cache works by content. -/
  weed : D → Weed
  md5 : D → Weed
  crc_lt : ∀ cs, crc cs < 2 ^ 32
  tlogCrc_lt : ∀ es, tlogCrc es < 2 ^ 32

theorem length_mod_lt {α : Type} (l : List α) : l.length % 2 ^ 32 < 2 ^ 32 := Nat.mod_lt _ (by decide)

/-- Lengths for checksums, and no hashes. -/
def Sums.lengths {D : Type} : Sums D where
  crc cs := cs.length % 2 ^ 32
  tlogCrc es := es.length % 2 ^ 32
  weed _ := 0
  md5 _ := 0
  crc_lt := length_mod_lt
  tlogCrc_lt := length_mod_lt

/-- What `writeClusters` of the data store filled in, the size of the vector it was given, and
the multiplier in force. -/
structure Handout where
  locs : List ClusterLocation
  size : Nat
  sco_mult : Nat
  deriving DecidableEq, Repr

/-- A volume. -/
structure Volume (D : Type) where
  dataStore_ : DataStoreNG D
  /-- The size of the vector `cluster_locations_`. -/
  cluster_locations_ : Nat
  /-- The TLogs that were closed, oldest first. -/
  closedTLogs : List (List Entry) := []
  currentTLog_ : List Entry := []
  numTLogEntries_ : Nat := 0
  maxTLogEntries_ : Nat
  /-- The number of SCOs in a TLog. -/
  tlog_mult : Nat := 20
  metaDataStore_ : ClusterMap := fun _ => .zero
  /-- All locations handed out so far. -/
  handed : List Handout := []

namespace Volume

variable {D : Type}

/-- Calls on a volume. -/
abbrev M (D : Type) := EStateM VolumeExn (Volume D)

/-- A call of the data store. -/
def ds {α : Type} (m : DataStoreNG.M D α) : M D α := fun v =>
  match m v.dataStore_ with
  | .ok a d => .ok a { v with dataStore_ := d }
  | .error e d => .error e { v with dataStore_ := d }

/-- A constructor that may throw. -/
def make {α : Type} (m : Except Exn α) : M D α :=
  match m with
  | .ok a => pure a
  | .error e => throw (.exn e)

/-- `VERIFY`. -/
def verify (p : Prop) [Decidable p] (what : String) : M D Unit :=
  if p then pure () else throw (.exn (.assertion what))

theorem triple_verify {β : Type} {p : Prop} [Decidable p] {what : String} {m : M D β} {P : Volume D → Prop}
    {Q : β → Volume D → Prop} {E : Volume D → Prop} (h : p → Triple P m Q E) (he : ∀ v, P v → E v) :
    Triple P (verify p what >>= fun _ => m) Q E := by
  unfold verify
  by_cases hp : p
  · rw [if_pos hp]; exact h hp
  · rw [if_neg hp]; exact fun v hv => he v hv

/-! ## TLogs -/

/-- `TLogWriter::add`. -/
def addEntry (e : Entry) : M D Unit := modify fun v => { v with currentTLog_ := v.currentTLog_ ++ [e] }

variable (sums : Sums D)

/-- The TLog gets its checksum and is closed; a new one is opened. -/
def switchTLog : M D Unit := do
  let v ← get
  let e ← make (Entry.mkCheckSum (sums.tlogCrc v.currentTLog_) .TLogCRC)
  set { v with closedTLogs := v.closedTLogs ++ [v.currentTLog_ ++ [e]], currentTLog_ := [], numTLogEntries_ := 0 }

/-- `TLogWriter::add` for the checksum of a SCO. -/
def addSCOCRCEntry (cs : List D) : M D Unit := do
  let e ← make (Entry.mkCheckSum (sums.crc cs) .SCOCRC)
  addEntry e

/-- A full TLog is closed. -/
def maybe_switch_tlog_ : M D Unit := do
  let v ← get
  if v.numTLogEntries_ ≥ v.maxTLogEntries_ then
    switchTLog sums

/-- `SnapshotManagement::addSCOCRC`. -/
def addSCOCRC (cs : List D) : M D Unit := do
  addSCOCRCEntry sums cs
  maybe_switch_tlog_ sums

/-- `SnapshotManagement::addClusterEntry`. -/
def addClusterEntry (ca : ClusterAddress) (loc_and_hash : ClusterLocationAndHash) : M D Unit := do
  let e ← make (Entry.mkLocation ca loc_and_hash)
  addEntry e
  modify fun v => { v with numTLogEntries_ := v.numTLogEntries_ + 1 }

/-- `SnapshotManagement::sync`. -/
def syncTLog : Option (List D) → M D Unit
  | none => pure ()
  | some cs => addSCOCRCEntry sums cs

/-- `SnapshotManagement::scheduleBackendSync`. -/
def closeTLogWith (maybe_sco_crc : Option (List D)) : M D Unit := do
  syncTLog sums maybe_sco_crc
  switchTLog sums

/-- `currentTLogHasData`. -/
def currentTLogHasData (v : Volume D) : Bool := v.currentTLog_.any (·.isLocation)

/-! ## Writing -/

/-- `writeClusterMetaData_`. -/
def writeClusterMetaData_ (ca : ClusterAddress) (loc_and_hash : ClusterLocationAndHash) : M D Unit := do
  addClusterEntry ca loc_and_hash
  modify fun v => { v with metaDataStore_ := Function.update v.metaDataStore_ ca loc_and_hash }

/-- The data store fills in the locations. -/
def handOut (buf : List D) : M D (List ClusterLocation) := do
  let locs ← ds (writeClusters buf)
  modify fun v =>
    { v with handed := v.handed ++ [⟨locs, v.cluster_locations_, v.dataStore_.sco_mult_⟩] }
  pure locs

/-- The entries and the metadata of consecutive clusters. -/
def recordClusters : ClusterAddress → List (ClusterLocation × D) → M D Unit
  | _, [] => pure ()
  | ca, (loc, data) :: rest => do
    writeClusterMetaData_ ca ⟨loc, sums.weed data⟩
    recordClusters (ca + 1) rest

/-- A full SCO is pushed, and its checksum goes to the TLog. -/
def rollover : M D Unit := do
  let v ← get
  if v.dataStore_.getRemainingSCOCapacity = 0 then
    match ← ds finalizeCurrentSCO with
    | none => throw (.exn (.assertion "cs"))
    | some cs => addSCOCRC sums cs

/-- `writeClusters_`. -/
def writeClusters_ (ca : ClusterAddress) (buf : List D) : M D Unit := do
  let locs ← handOut buf
  recordClusters sums ca (locs.zip buf)
  rollover sums

/-- The loop of `write_aligned_`, in clusters: a chunk is as long as the rest of the request, the
queue of the DTL and the SCO allow. -/
def writeChunks (max_entries : Nat) : Nat → ClusterAddress → List D → M D Unit
  | 0, _, _ => pure ()
  | turns + 1, ca, buf => do
    let v ← get
    if buf ≠ [] then
      verify (0 < max_entries) "dtl_cap > 0"
      let chunk := min buf.length (min max_entries v.dataStore_.getRemainingSCOCapacity)
      writeClusters_ sums ca (buf.take chunk)
      writeChunks max_entries turns (ca + chunk) (buf.drop chunk)

theorem triple_writeChunks {I : Nat → Volume D → Prop} {E : Volume D → Prop} (hE : ∀ r v, I r v → E v)
    (hcap : ∀ r v, I r v → v.dataStore_.getRemainingSCOCapacity = v.dataStore_.sco_mult_ - v.dataStore_.offset)
    (hwrite : ∀ {r} ca (buf : List D), buf.length ≤ r →
      Triple (fun v => I r v ∧ buf.length ≤ v.dataStore_.sco_mult_ - v.dataStore_.offset) (writeClusters_ sums ca buf)
        (fun _ => I (r - buf.length)) E) (max_entries : Nat) : ∀ (turns : Nat) (ca : ClusterAddress) (buf : List D),
    Triple (I buf.length) (writeChunks sums max_entries turns ca buf) (fun _ => E) E
  | 0, _, _ => Triple.pure (hE _)
  | turns + 1, ca, buf => by
    refine Triple.get_bind fun v h => ?_
    refine Triple.ite (fun _ => ?_) fun _ => Triple.pure fun w hw => hw ▸ hE _ v h
    refine triple_verify (fun _ => ?_) fun w hw => hw ▸ hE _ v h
    have hroom := hcap _ v h
    generalize hchunk : min buf.length (min max_entries v.dataStore_.getRemainingSCOCapacity) = chunk
    have hlen : (buf.take chunk).length = chunk := by rw [List.length_take]; omega
    have hfirst := hwrite ca (buf.take chunk) (show (buf.take chunk).length ≤ buf.length by omega)
    have hrest := triple_writeChunks hE hcap hwrite max_entries turns (ca + chunk) (buf.drop chunk)
    rw [hlen] at hfirst
    rw [List.length_drop] at hrest
    refine (hfirst.weaken ?_ fun _ _ hq => hq).bind fun _ => hrest
    rintro w rfl
    exact ⟨h, by omega⟩

/-- At most every other turn finds a full SCO and writes nothing, so there are at most twice as
many turns as clusters. -/
def write_aligned_ (max_entries : Nat) (ca : ClusterAddress) (buf : List D) : M D Unit :=
  writeChunks sums max_entries (2 * buf.length) ca buf

/-! ## Synchronising, and the SCO multiplier -/

/-- `append_chksum`: the checksum of the SCO so far goes to the TLog. -/
def sync_ (append_chksum : Bool) : M D Unit := do
  let v ← get
  syncTLog sums (if append_chksum then v.dataStore_.sync else none)

/-- `scheduleBackendSync_`. -/
def scheduleBackendSync_ : M D Unit := do
  sync_ sums false
  let maybe_sco_crc ← ds finalizeCurrentSCO
  closeTLogWith sums maybe_sco_crc

/-- The bounds of `setSCOMultiplier`: function-local statics, computed once from the cluster size
of the first volume that gets there. -/
structure SCOSizeLimits where
  first_csize : Nat
  min_sco_size : Nat
  max_sco_size : Nat

/-- The smallest SCO. -/
def SCOSizeLimits.sco_size_min (l : SCOSizeLimits) : Nat := min (2 ^ 16 * l.first_csize) l.min_sco_size

/-- The largest. -/
def SCOSizeLimits.sco_size_max (l : SCOSizeLimits) : Nat := min (2 ^ 16 * l.first_csize) l.max_sco_size

/-- The vector of locations, the data store and the TLogs get the new multiplier. -/
def applySCOMultiplier (sco_mult : Nat) : M D Unit := do
  modify fun v => { v with cluster_locations_ := sco_mult }
  ds (setSCOMultiplier sco_mult)
  modify fun v => { v with maxTLogEntries_ := v.tlog_mult * sco_mult % 2 ^ 32 }

/-- `enough`: the SCO cache has room for the larger SCOs (`checkSCOAndTLogMultipliers`). -/
def setSCOMultiplier (limits : SCOSizeLimits) (csize : Nat) (enough : Bool) (sco_mult : Nat) : M D Unit := do
  if csize * sco_mult < limits.sco_size_min then
    throw (.invalidOperation "Resulting SCO size is too small")
  if csize * sco_mult > limits.sco_size_max then
    throw (.invalidOperation "Resulting SCO size is too big")
  if enough = false then
    throw (.insufficientResourcesException "SCOCache would be overcommitted")
  applySCOMultiplier sco_mult
  scheduleBackendSync_ sums

/-! ## What the calls of the data store do to the volume -/

section
variable {α : Type} {v : Volume D} {d : DataStoreNG D} {m : DataStoreNG.M D α}

theorem ds_ok {a : α} (h : m v.dataStore_ = .ok a d) : ds m v = .ok a { v with dataStore_ := d } := by
  unfold ds
  rw [h]

theorem ds_error {e : VolumeExn} (h : m v.dataStore_ = .error e d) : ds m v = .error e { v with dataStore_ := d } := by
  unfold ds
  rw [h]

variable (buf : List D)

theorem handOut_ok (h : v.dataStore_.CanWrite) : handOut buf v = .ok (v.dataStore_.locations buf.length)
      { v with
        dataStore_ := v.dataStore_.ready.written buf
        handed := v.handed ++
          [⟨v.dataStore_.locations buf.length, v.cluster_locations_, v.dataStore_.sco_mult_⟩] } := by
  refine (run_bind (ds_ok (writeClusters_ok buf h))).trans ?_
  rw [← v.dataStore_.sameLocation_ready.mult]
  rfl

theorem applySCOMultiplier_ok {sco_mult : Nat} (h : sco_mult ≠ 0) : applySCOMultiplier sco_mult v = .ok ⟨⟩ { v with
        cluster_locations_ := sco_mult
        dataStore_ := { v.dataStore_ with sco_mult_ := sco_mult }
        maxTLogEntries_ := v.tlog_mult * sco_mult % 2 ^ 32 } := by
  have hset : DataStoreNG.setSCOMultiplier sco_mult v.dataStore_ =
      .ok ⟨⟩ { v.dataStore_ with sco_mult_ := sco_mult } := by
    refine (run_bind (show DataStoreNG.verify _ _ v.dataStore_ = .ok () v.dataStore_ from ?_)).trans rfl
    rw [DataStoreNG.verify, if_pos h]
    rfl
  have hds := ds_ok (v := { v with cluster_locations_ := sco_mult }) hset
  show (ds (DataStoreNG.setSCOMultiplier sco_mult) >>= _) { v with cluster_locations_ := sco_mult } = _
  exact (run_bind hds).trans rfl

theorem handOut_fails (ho : v.dataStore_.current_open = false) (hc : v.dataStore_.createSCO_fails.headD false = true) :
    handOut buf v = .error .transientException { v with dataStore_ := v.dataStore_.notCreated } :=
  run_bind_error (ds_error (writeClusters_fails buf ho hc))

end

/-! ## What the TLogs and the metadata leave alone -/

/-- The data store and the locations it handed out. -/
def core (v : Volume D) : DataStoreNG D × Nat × List Handout := (v.dataStore_, v.cluster_locations_, v.handed)

theorem keeps_make {α γ : Type} {f : Volume D → γ} (m : Except Exn α) : Keeps f (make m) := by
  cases m with
  | ok a => exact keeps_pure
  | error e => exact keeps_throw

theorem core_addSCOCRCEntry (cs : List D) : Keeps core (addSCOCRCEntry sums cs) :=
  (keeps_make _).bind fun _ => keeps_modify fun _ => rfl

theorem core_switchTLog : Keeps core (switchTLog sums) :=
  keeps_get_bind fun v => by
    cases Entry.mkCheckSum (sums.tlogCrc v.currentTLog_) .TLogCRC <;> rfl

theorem core_addSCOCRC (cs : List D) : Keeps core (addSCOCRC sums cs) := by
  refine (core_addSCOCRCEntry sums cs).bind fun _ => keeps_get_bind fun v => ?_
  split
  · exact core_switchTLog sums v
  · rfl

theorem core_syncTLog (maybe_sco_crc : Option (List D)) : Keeps core (syncTLog sums maybe_sco_crc) := by
  cases maybe_sco_crc with
  | none => exact keeps_pure
  | some cs => exact core_addSCOCRCEntry sums cs

theorem core_closeTLogWith (maybe_sco_crc : Option (List D)) : Keeps core (closeTLogWith sums maybe_sco_crc) :=
  (core_syncTLog sums maybe_sco_crc).bind fun _ => core_switchTLog sums

theorem core_writeClusterMetaData_ (ca : ClusterAddress) (l : ClusterLocationAndHash) :
    Keeps core (writeClusterMetaData_ ca l : M D Unit) :=
  Keeps.bind ((keeps_make _).bind fun _ => Keeps.bind (keeps_modify fun _ => rfl) fun _ => keeps_modify fun _ => rfl)
    fun _ => keeps_modify fun _ => rfl

theorem core_recordClusters : ∀ (ca : ClusterAddress) (l : List (ClusterLocation × D)),
    Keeps core (recordClusters sums ca l)
  | _, [] => keeps_pure
  | ca, _ :: rest => (core_writeClusterMetaData_ ca _).bind fun _ => core_recordClusters (ca + 1) rest

end Volume

end VolumeDriver
