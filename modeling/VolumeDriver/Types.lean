/-
The vocabulary of the volume driver: exceptions, SCO names, cluster locations with their hash,
and the entries of a TLog. Unsigned integers are `Nat`; where the code lets one wrap, the
operation that wraps says so.
-/
import Mathlib.Algebra.Group.Nat.Defs
import VolumeDriver.Lib.Except

namespace VolumeDriver

open Lib

/-! ## Exceptions -/

/-- What the code throws: a failed `VERIFY` or `THROW_UNLESS`, a plain `fungi::IOException`, or
one of the exception classes the callers tell apart. -/
inductive Exn
  | assertion (what : String)
  | throwUnless (what : String)
  | ioException (what : String)
  | invalidEntry
  | backendObjectDoesNotExist
  | snapshotNotFound (what : String)
  | snapshotNameAlreadyExists (name : String)
  | excessiveMetaData (name : String)
  | corkNotFound
  | corkNotOnBackend (what : String)
  | abort (what : String)
  | tlogWithoutFinalCRC
  | scoSwitchWithoutSCOCRC
  | scoCRCWithoutActiveSCO
  | tlogWrongCRC
  deriving DecidableEq, Repr

/-- `VERIFY(p)`. -/
def VERIFY (p : Prop) [Decidable p] (what : String) : Except Exn Unit :=
  verify p (.assertion what)

theorem VERIFY_bind_ok {α : Type} {p : Prop} [Decidable p] {what : String} {f : Unit → Except Exn α} {b : α}
    (h : VERIFY p what >>= f = .ok b) : p ∧ f () = .ok b :=
  verify_bind_ok h

@[simp] theorem VERIFY_of {p : Prop} [Decidable p] {what : String} (h : p) : VERIFY p what = .ok () :=
  verify_of h

/-! ## Identifiers -/

/-- A 128-bit random identifier; the code only compares them. -/
abbrev UUID := Nat

/-- The name of a TLog. -/
abbrev TLogId := UUID

/-- The identity of a scrub result that was applied. -/
abbrev ScrubId := UUID

/-- The number of a cluster in the volume. -/
abbrev ClusterAddress := Nat

/-- The number of a page of the metadata. -/
abbrev PageAddress := Nat

/-- Counts the SCOs of a volume, from 1. -/
abbrev SCONumber := Nat

/-- The index of a cluster in its SCO. -/
abbrev SCOOffset := Nat

/-- The place in the chain of clones: 0 for the volume itself. -/
abbrev SCOCloneID := Nat

/-- Counts the rewrites of a SCO by scrubbing. -/
abbrev SCOVersion := Nat

/-- The number of a snapshot. -/
abbrev SnapshotNum := Nat

/-- The name of a snapshot. -/
abbrev SnapshotName := String

/-- The name of a SCO. -/
structure SCO where
  number : SCONumber
  cloneID : SCOCloneID := 0
  version : SCOVersion := 0
  deriving DecidableEq, Repr

namespace SCO

/-- `SCO::operator<`: by number, then version, then clone id. -/
def cmp (a b : SCO) : Ordering :=
  (compare a.number b.number).then ((compare a.version b.version).then (compare a.cloneID b.cloneID))

/-- The name with its clone id replaced. -/
def withCloneID (s : SCO) (scid : SCOCloneID) : SCO := { s with cloneID := scid }

end SCO

/-! ## Cluster locations -/

/-- Where a cluster is stored: a SCO and the cluster's index in it. -/
structure ClusterLocation where
  sco : SCO
  offset : SCOOffset := 0
  deriving DecidableEq, Repr

namespace ClusterLocation

/-- The number of the SCO. -/
def number (l : ClusterLocation) : SCONumber := l.sco.number

/-- SCO number 0 is no location at all. -/
def isNull (l : ClusterLocation) : Bool := l.sco.number == 0

/-- The location with the clone id of its SCO replaced. -/
def withCloneID (l : ClusterLocation) (scid : SCOCloneID) : ClusterLocation :=
  { l with sco := l.sco.withCloneID scid }

end ClusterLocation

/-- An MD5 sum. -/
abbrev Weed := BitVec 128

/-- A location with the hash of the cluster's data (the `ENABLE_MD5_HASH` build, the default). -/
structure ClusterLocationAndHash where
  clusterLocation : ClusterLocation
  weed : Weed
  deriving DecidableEq, Repr

namespace ClusterLocationAndHash

/-- All bytes 0: what `memset` leaves in a page. -/
def zero : ClusterLocationAndHash := ⟨⟨⟨0, 0, 0⟩, 0⟩, 0⟩

/-- The location of a discarded cluster: no location, and the MD5 sum of 4096 zero bytes. -/
def discarded_location_and_hash : ClusterLocationAndHash :=
  ⟨⟨⟨0, 0, 0⟩, 0⟩, 0x620f0b67a91f7f74151bc5be745b7110#128⟩

/-- No location, whatever the hash. -/
def isNull (c : ClusterLocationAndHash) : Bool := c.clusterLocation.isNull

/-- One representation for no location, whatever the hash. -/
def fixup (c : ClusterLocationAndHash) : ClusterLocationAndHash :=
  if c.isNull then discarded_location_and_hash else c

/-- The location with its clone id replaced and the hash kept. -/
def withCloneID (c : ClusterLocationAndHash) (scid : SCOCloneID) : ClusterLocationAndHash :=
  { c with clusterLocation := c.clusterLocation.withCloneID scid }

theorem fixup_of_isNull {c : ClusterLocationAndHash} (h : c.isNull = true) : c.fixup = discarded_location_and_hash :=
  if_pos h

theorem fixup_of_not_isNull {c : ClusterLocationAndHash} (h : c.isNull = false) : c.fixup = c :=
  if_neg (by simp [h])

@[simp] theorem isNull_fixup (c : ClusterLocationAndHash) : c.fixup.isNull = c.isNull := by
  by_cases h : c.isNull = true
  · rw [fixup_of_isNull h, h]; rfl
  · rw [fixup_of_not_isNull (by simpa using h)]

end ClusterLocationAndHash

/-- The location of each cluster. -/
abbrev ClusterMap := ClusterAddress → ClusterLocationAndHash

/-- Locations of clusters in the order in which they are written. -/
abbrev Bindings := List (ClusterAddress × ClusterLocationAndHash)

/-! ## TLog entries -/

/-- An entry as it stands in a TLog file: one word that is a cluster address or a tagged
checksum, and a location that is null unless the entry is a location entry. -/
structure Entry where
  clusteraddress : Nat
  loc_and_hash : ClusterLocationAndHash
  deriving DecidableEq, Repr

/-- The kinds of entries (`Entry::Type`). -/
inductive EntryType
  | SyncTC
  | TLogCRC
  | SCOCRC
  | LOC
  deriving DecidableEq, Repr

namespace Entry

/-- The largest cluster address that an entry may hold. -/
def max_valid_cluster_address : ClusterAddress := 2 ^ 35 - 1

/-- The bits of a checksum, above which its tag stands. -/
def checksum_shift : Nat := 32

/-- The constructor of location entries. -/
def mkLocation (ca : ClusterAddress) (loc : ClusterLocationAndHash) : Except Exn Entry := do
  VERIFY (loc.isNull = false) "not loc_and_hash_.clusterLocation.isNull()"
  verify (ca ≤ max_valid_cluster_address) (.throwUnless "clusteraddress_ <= max_valid_cluster_address()")
  pure ⟨ca, loc⟩

/-- The constructor of SCO and TLog checksum entries. -/
def mkCheckSum (cs : Nat) (t : EntryType) : Except Exn Entry := do
  VERIFY (t = .TLogCRC ∨ t = .SCOCRC) "type == Type::TLogCRC or type == Type::SCOCRC"
  pure ⟨cs ||| ((if t = .TLogCRC then 1 else 2) <<< checksum_shift), .zero⟩

/-- The location of the entry. -/
def clusterLocation (e : Entry) : ClusterLocation := e.loc_and_hash.clusterLocation

/-- The SCO of the location. -/
def sco (e : Entry) : SCO := e.loc_and_hash.clusterLocation.sco

/-- The kind of the entry; the word tells those without a location apart. -/
def type (e : Entry) : Except Exn EntryType :=
  if e.clusterLocation.isNull = false then .ok .LOC
  else if e.clusteraddress >>> checksum_shift = 1 then .ok .TLogCRC
  else if e.clusteraddress >>> checksum_shift = 2 then .ok .SCOCRC
  else if e.clusteraddress = 0 then .ok .SyncTC
  else .error .invalidEntry

variable (e : Entry)

/-- `MAKE_CHECKER`: an invalid entry is of no type. -/
def isOfType (t : EntryType) : Bool :=
  match e.type with
  | .ok t' => decide (t' = t)
  | .error _ => false

/-- The entry binds an address to a location. -/
def isLocation : Bool := e.isOfType .LOC

/-- The entry is a checksum of the TLog. -/
def isTLogCRC : Bool := e.isOfType .TLogCRC

/-- The entry is a checksum of a SCO. -/
def isSCOCRC : Bool := e.isOfType .SCOCRC

/-- The entry is a sync marker. -/
def isSync : Bool := e.isOfType .SyncTC

/-- The checksum without its tag. -/
def getCheckSum : Nat := e.clusteraddress % 2 ^ checksum_shift

/-- The cluster address of an entry, refused for a location entry with an insane one. -/
def clusterAddress : Except Exn ClusterAddress := do
  if e.clusterLocation.isNull = false then
    verify (e.clusteraddress ≤ max_valid_cluster_address)
      (.throwUnless "clusteraddress_ <= max_valid_cluster_address()")
  pure e.clusteraddress

/-- The address and the location of an entry, as the metadata takes them. -/
def binding : ClusterAddress × ClusterLocationAndHash := (e.clusteraddress, e.loc_and_hash)

theorem isLocation_iff {e : Entry} : e.isLocation = true ↔ e.loc_and_hash.isNull = false := by
  unfold isLocation isOfType type ClusterLocationAndHash.isNull clusterLocation
  by_cases h : e.loc_and_hash.clusterLocation.isNull = false
  · simp [h]
  · split_ifs <;> simp [h]

theorem mkLocation_ok {ca : ClusterAddress} {loc : ClusterLocationAndHash} {e : Entry}
    (h : mkLocation ca loc = .ok e) : e = ⟨ca, loc⟩ ∧ loc.isNull = false ∧ ca ≤ max_valid_cluster_address := by
  obtain ⟨h1, h⟩ := VERIFY_bind_ok h
  obtain ⟨h2, h⟩ := verify_bind_ok h
  exact ⟨(pure_ok h).symm, h1, h2⟩

theorem clusterAddress_ok {e : Entry} {ca : ClusterAddress} (h : e.clusterAddress = .ok ca) :
    ca = e.clusteraddress := by
  unfold clusterAddress at h
  split at h
  · obtain ⟨_, h⟩ := verify_bind_ok h
    exact (pure_ok h).symm
  · exact (pure_ok h).symm

end Entry

end VolumeDriver
