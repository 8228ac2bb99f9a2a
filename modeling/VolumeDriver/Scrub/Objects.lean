/-
The namespace of a volume on the backend, as the scrubber sees it: SCOs, TLogs, the snapshots file, and
the relocation logs and results that a scrub leaves there. Every write of a scrub is preceded by a check
that the object does not exist.
-/
import VolumeDriver.Snapshot.Persistor

namespace VolumeDriver

open Lib Function List

namespace Scrubbing

/-! ## Objects -/

/-- The names of objects, by kind; the code tells the kinds apart by the form of the string. -/
inductive ObjectName
  | sco (name : SCO)
  | tlog (id : TLogId)
  | relocation (id : TLogId)
  | scrubbing_result (id : UUID)
  | snapshots
  | other (name : String)
  deriving DecidableEq, Repr

/-- What a scrub leaves for the volume. -/
structure ScrubberResult where
  snapshot_name : SnapshotName
  tlog_names_in : List TLogId := []
  tlogs_out : List TLog := []
  relocs : List ObjectName := []
  relocNum : Nat := 0
  sconames_to_be_deleted : List SCO := []
  new_sconames : List SCO := []
  deriving DecidableEq, Repr

/-- The contents of a file. -/
abbrev Bytes := List UInt8

/-- What is stored under a name. -/
abbrev Object : ObjectName → Type
  | .sco _ => Bytes
  | .tlog _ => List Entry
  | .relocation _ => List Entry
  | .scrubbing_result _ => ScrubberResult
  | .snapshots => SnapshotPersistor
  | .other _ => Bytes

/-- The namespace: what is stored under each name. -/
abbrev BackendInterface := (name : ObjectName) → Option (Object name)

namespace BackendInterface

variable (b : BackendInterface)

variable (name : ObjectName)

/-- There is an object of this name. -/
def objectExists : Bool := (b name).isSome

/-- Reads an object, which has to exist. -/
def read : Except Exn (Object name) :=
  match b name with
  | some o => pure o
  | none => throw .backendObjectDoesNotExist

/-- The check that the object does not exist, and the write. -/
def write (o : Object name) : Except Exn BackendInterface := do
  VERIFY (b.objectExists name = false) "not backendinterface_.objectExists(name)"
  pure (update b name (some o))

/-- Puts an object in the place of what is there. -/
def overwrite (o : Object name) : BackendInterface :=
  update b name (some o)

/-- An object that does not exist is an error unless `may_not_exist`. -/
def remove (may_not_exist : Bool) : Except Exn BackendInterface :=
  if b.objectExists name || may_not_exist then pure (update b name none)
  else throw .backendObjectDoesNotExist

/-- All objects of `b` are in `b'`, as they are. -/
def Le (b b' : BackendInterface) : Prop := ∀ name o, b name = some o → b' name = some o

theorem Le.refl : b.Le b := fun _ _ h => h

variable {b b' : BackendInterface} {name : ObjectName} {o : Object name}

theorem Le.trans {a c : BackendInterface} (hab : a.Le b) (hbc : b.Le c) : a.Le c :=
  fun name o h => hbc name o (hab name o h)

theorem Le.none (h : b.Le b') (hn : b' name = .none) : b name = .none := by
  cases hb : b name with
  | none => rfl
  | some o => rw [h _ _ hb] at hn; cases hn

theorem objectExists_false : b.objectExists name = false ↔ b name = none := by
  unfold objectExists
  rw [Option.isSome_eq_false_iff, Option.isNone_iff_eq_none]

theorem write_ok (h : b.write name o = .ok b') : b name = none ∧ b' = update b name (some o) := by
  obtain ⟨hnone, h⟩ := VERIFY_bind_ok h
  exact ⟨objectExists_false.1 hnone, (pure_ok h).symm⟩

theorem read_ok (h : b.read name = .ok o) : b name = some o := by
  unfold read at h
  split at h
  · rename_i o' ho
    rw [ho, pure_ok h]
  · cases h

theorem read_of (h : b name = some o) : b.read name = .ok o := by
  unfold read
  rw [h]
  rfl

theorem Le.write (h : b.write name o = .ok b') : b.Le b' := by
  obtain ⟨hnone, rfl⟩ := write_ok h
  intro n o' hn
  rw [update_of_ne]
  · exact hn
  · rintro rfl
    rw [hnone] at hn; cases hn

end BackendInterface

/-! ## Clusters -/

/-- The bytes of a cluster of a SCO. -/
def clusterAt (cluster_size : Nat) (file : Bytes) (offset : Nat) : Option Bytes :=
  if (offset + 1) * cluster_size ≤ file.length then some ((file.drop (offset * cluster_size)).take cluster_size)
  else none

/-- `FileDescriptor::pread`: at the end of the file the rest of the buffer stays as it was. -/
def pread (file buffer : Bytes) (size pos : Nat) : Bytes :=
  (file.drop pos).take size ++ buffer.drop ((file.drop pos).take size).length

/-- The cluster at a location, on the backend. -/
def BackendInterface.cluster (b : BackendInterface) (cluster_size : Nat) (loc : ClusterLocation) : Option Bytes :=
  (b (.sco loc.sco)).bind fun file => clusterAt cluster_size file loc.offset

variable {c file : Bytes} {size offset : Nat}

theorem BackendInterface.Le.cluster {b b' : BackendInterface} (h : b.Le b') {cluster_size : Nat} {loc : ClusterLocation}
    (hc : b.cluster cluster_size loc = some c) : b'.cluster cluster_size loc = some c := by
  obtain ⟨file, hfile, hc⟩ := Option.bind_eq_some_iff.1 hc
  exact Option.bind_eq_some_iff.2 ⟨file, h _ _ hfile, hc⟩

theorem pread_length {buffer : Bytes} {pos : Nat} (h : buffer.length = size) :
    (pread file buffer size pos).length = size := by
  unfold pread
  rw [length_append, length_drop, length_take]
  omega

theorem pread_of_clusterAt {buffer : Bytes} (h : clusterAt size file offset = some c)
    (hb : buffer.length = size) : pread file buffer size (offset * size) = c := by
  unfold clusterAt at h
  split at h
  · rename_i hlen
    cases h
    have hfull : ((file.drop (offset * size)).take size).length = size := by
      rw [Nat.succ_mul] at hlen
      rw [length_take, length_drop]
      omega
    unfold pread
    rw [hfull, ← hb, drop_length, append_nil, hb]
  · cases h

theorem clusterAt_append (more : Bytes) (h : clusterAt size file offset = some c) :
    clusterAt size (file ++ more) offset = some c := by
  unfold clusterAt at h ⊢
  split at h
  · rename_i hlen
    cases h
    rw [if_pos (by rw [length_append]; omega)]
    rw [Nat.succ_mul] at hlen
    rw [drop_append_of_le_length (by omega), take_append_of_le_length]
    rw [length_drop]; omega
  · cases h

theorem clusterAt_last (hf : file.length = offset * size) (hc : c.length = size) :
    clusterAt size (file ++ c) offset = some c := by
  unfold clusterAt
  rw [if_pos (by rw [length_append, hf, hc, Nat.succ_mul]), ← hf, drop_left, ← hc, take_length]

end Scrubbing

end VolumeDriver
