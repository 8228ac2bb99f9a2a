/-
The wire format of the DTL protocol (`fungi::IOBaseStream`): integers are sent as they lie in
memory, a cluster location as its offset followed by its SCO. A reader takes bytes off the front
of what the peer sent and throws once there are too few.
-/
import VolumeDriver.Types
import VolumeDriver.Lib.Bytes

namespace VolumeDriver

open Lib

/-! ## Reading -/

/-- A computation that reads from a stream. -/
abbrev Read := StateT Bytes (Except Exn)

namespace Read

/-- `IOBaseStream::read`: exactly `n` bytes. -/
def bytes (n : Nat) : Read Bytes := fun input =>
  if n ≤ input.length then .ok (input.take n, input.drop n) else .error (.ioException "Socket::read")

/-- An unsigned integer of `n` bytes. -/
def unsigned (n : Nat) : Read Nat := ofLE <$> bytes n

/-- `readLong_`. -/
def long : Read Int := (fun n => int64 n) <$> unsigned 8

/-- A SCO's name. -/
def sco : Read SCO := do
  let version ← unsigned 1
  let number ← unsigned 4
  let cloneID ← unsigned 1
  pure { number, cloneID, version }

/-- A cluster's location. -/
def clusterLocation : Read ClusterLocation := do
  let offset ← unsigned 2
  let sco ← sco
  pure { sco, offset }

end Read

/-! ## Writing -/

namespace Put

/-- A SCO's name. -/
def sco (s : SCO) : Bytes := toLE 1 s.version ++ toLE 4 s.number ++ toLE 1 s.cloneID

/-- A cluster's location. -/
def clusterLocation (l : ClusterLocation) : Bytes := toLE 2 l.offset ++ sco l.sco

@[simp] theorem length_clusterLocation (l : ClusterLocation) : (clusterLocation l).length = 8 := by
  simp [clusterLocation, sco]

end Put

/-! ## What is written is what is read -/

/-- The fields of the location fit into the integers they are sent as. -/
structure ClusterLocation.Fits (l : ClusterLocation) : Prop where
  offset : l.offset < 2 ^ 16
  version : l.sco.version < 2 ^ 8
  number : l.sco.number < 2 ^ 32
  cloneID : l.sco.cloneID < 2 ^ 8

namespace Read

variable {α β : Type}

theorem bind_of {m : Read α} {f : α → Read β} {input rest : Bytes} {a : α} (h : m input = .ok (a, rest)) :
    (m >>= f) input = f a rest := by
  show (m input >>= fun p => f p.1 p.2) = _
  rw [h]; rfl

theorem bytes_append {n : Nat} (bs rest : Bytes) (h : bs.length = n) : bytes n (bs ++ rest) = .ok (bs, rest) := by
  subst h
  unfold bytes
  rw [if_pos (by simp), List.take_left, List.drop_left]

theorem unsigned_toLE {n v : Nat} (rest : Bytes) (h : v < 256 ^ n) : unsigned n (toLE n v ++ rest) = .ok (v, rest) := by
  show (bytes n (toLE n v ++ rest) >>= fun p => pure (ofLE p.1, p.2)) = _
  rw [bytes_append _ _ (length_toLE n v)]
  show Except.ok (ofLE (toLE n v), rest) = _
  rw [ofLE_toLE_of_lt h]

theorem long_toLE {v : Nat} (rest : Bytes) (h : v < 2 ^ 64) : long (toLE 8 v ++ rest) = .ok (int64 v, rest) := by
  show (unsigned 8 (toLE 8 v ++ rest) >>= fun p => pure (int64 p.1, p.2)) = _
  rw [unsigned_toLE rest h]; rfl

theorem clusterLocation_put {l : ClusterLocation} (h : l.Fits) (rest : Bytes) :
    clusterLocation (Put.clusterLocation l ++ rest) = .ok (l, rest) := by
  unfold clusterLocation sco Put.clusterLocation Put.sco
  simp only [List.append_assoc]
  rw [bind_of (unsigned_toLE _ h.offset), bind_assoc, bind_of (unsigned_toLE _ h.version), bind_assoc,
    bind_of (unsigned_toLE _ h.number), bind_assoc, bind_of (unsigned_toLE _ h.cloneID)]
  rfl

end Read

end VolumeDriver
