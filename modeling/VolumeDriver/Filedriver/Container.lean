/-
A file of the file driver (`Container`): its bytes are spread over extents of 1 MiB, each of which is an
object on the backend and, while it is in the extent cache, a local file. The container only keeps the
size of the file and which extents exist. Offsets and sizes are 64 bits wide and extent numbers 32;
differences are unsigned. The backend and the local file system do not fail.
-/
import VolumeDriver.Lib.Assoc
import VolumeDriver.Lib.Bytes
import VolumeDriver.Lib.Except
import VolumeDriver.Lib.Files

namespace VolumeDriver.Filedriver

open Lib

/-- The bytes of a local file or of an object. -/
abbrev File := List UInt8

/-- `Extent::capacity`. -/
def Extent.capacity : Nat := 2 ^ 20

open Extent

/-- What a call throws. -/
inductive Error
  | assertion (what : String)
  | extentNotPresent
  deriving DecidableEq, Repr

/-! ## The extent cache -/

/-- `ExtentCache`: the local files by extent number, the least recently used first. -/
structure ExtentCache where
  capacity : Nat
  entries : Assoc Nat File := []

/-- A hit makes the entry the most recently used one; otherwise what `pull` brings is added, after the
oldest entries had to leave. -/
def ExtentCache.find (cache : ExtentCache) (idx : Nat) (pull : Option File) : Option (File × ExtentCache) :=
  match cache.entries.find idx with
  | some f => some (f, { cache with entries := cache.entries.erase idx ++ [(idx, f)] })
  | none =>
    pull.map fun f =>
      (f, { cache with entries := cache.entries.drop (cache.entries.length + 1 - cache.capacity) ++ [(idx, f)] })

/-- An extent leaves the cache. -/
def ExtentCache.erase (cache : ExtentCache) (idx : Nat) : ExtentCache :=
  { cache with entries := cache.entries.erase idx }

/-- The local file of an extent that is in use has changed. -/
def ExtentCache.modify (cache : ExtentCache) (idx : Nat) (f : File) : ExtentCache :=
  { cache with entries := cache.entries.erase idx ++ [(idx, f)] }

/-! ## The container -/

/-- A `Container`, with the extent cache and the objects on the backend it works on, by extent number. -/
structure State where
  size_ : Nat := 0
  extents_ : List Bool := []
  cache : ExtentCache
  objects : Assoc Nat File := []

namespace State

variable (s : State)

/-- The object of an extent. -/
def backend (idx : Nat) : Option File := s.objects.find idx

/-- The extent is marked in the bitmap. -/
def extent_exists_ (idx : Nat) : Bool := (s.extents_[idx]?).getD false

/-- `extent_exists_(idx, true)`. -/
def mark (idx : Nat) : State :=
  { s with
    extents_ := if s.extents_.length ≤ idx then s.extents_ ++ List.replicate (idx - s.extents_.length) false ++ [true]
      else s.extents_.set idx true }

/-- An extent that exists, from the cache or the backend. -/
def find_extent_ (idx : Nat) : Except Error (File × State) :=
  match s.cache.find idx (s.backend idx) with
  | some (f, cache) => .ok (f, { s with cache := cache })
  | none => .error .extentNotPresent

/-- The local file of a new extent. -/
def new_extent_ (idx : Nat) : Except Error (File × State) :=
  match s.cache.find idx (some []) with
  | some (f, cache) => .ok (f, { s with cache := cache })
  | none => .error (.assertion "ext != nullptr")

/-- An extent to write to. -/
def find_or_create_extent_ (idx : Nat) : Except Error (File × State) :=
  if s.extent_exists_ idx then s.find_extent_ idx else s.new_extent_ idx

/-- The changed local file, written to the backend. -/
def upload (idx : Nat) (f : File) : State :=
  { s with cache := s.cache.modify idx f, objects := s.objects.set idx f }

/-! ## Reading and writing -/

/-- One turn of `read`, which yields `r` bytes of one extent. -/
def readPiece (idx eoff r : Nat) : Except Error (File × State) :=
  if s.extent_exists_ idx then do
    let (f, s) ← s.find_extent_ idx
    verify (eoff + r ≤ capacity) (.assertion "off + bufsize <= capacity()")
    let bytes := pread f eoff r
    -- a short extent is filled up with zeros
    pure (bytes ++ List.replicate (r - bytes.length) 0, s)
  else pure (List.replicate r 0, s)

/-- The loop of `read`; each turn reads a byte at least. -/
def readLoop : Nat → State → Nat → Nat → Except Error (File × State)
  | 0, s, _, _ => pure ([], s)
  | turns + 1, s, off, todo =>
    if todo = 0 then pure ([], s)
    else do
      let eoff := off % capacity
      let r := min (capacity - eoff) todo
      let (bytes, s) ← s.readPiece (off / capacity % 2 ^ 32) eoff r
      let (rest, s) ← readLoop turns s ((off + r) % 2 ^ 64) (todo - r)
      pure (bytes ++ rest, s)

/-- How much `read` is going to read: `off - size() > 0` compares unsigned numbers. -/
def to_read (off bufsize : Nat) : Nat :=
  min (if 0 < uint64 (off - s.size_) then uint64 (s.size_ - off) else 0) bufsize

/-- `Container::read`. -/
def read (off bufsize : Nat) : Except Error (File × State) :=
  readLoop (s.to_read off bufsize) s off (s.to_read off bufsize)

/-- One turn of `write`, for bytes of one extent. -/
def writePiece (idx eoff : Nat) (bytes : File) : Except Error State := do
  let (f, s) ← s.find_or_create_extent_ idx
  verify (eoff + bytes.length ≤ capacity) (.assertion "off + bufsize <= capacity()")
  pure ((s.upload idx (pwrite f eoff bytes)).mark idx)

/-- `if (off - size_ > 0) size_ = off`, again with an unsigned difference. -/
def extend (off : Nat) : State :=
  { s with size_ := if 0 < uint64 (off - s.size_) then off else s.size_ }

/-- The loop of `write`. -/
def writeLoop : Nat → State → Nat → File → Except Error State
  | 0, s, _, _ => pure s
  | turns + 1, s, off, bytes =>
    if bytes.isEmpty then pure s
    else do
      let eoff := off % capacity
      let r := min (capacity - eoff) bytes.length
      let s ← s.writePiece (off / capacity % 2 ^ 32) eoff (bytes.take r)
      writeLoop turns (s.extend ((off + r) % 2 ^ 64)) ((off + r) % 2 ^ 64) (bytes.drop r)

/-- `Container::write`. -/
def write (off : Nat) (bytes : File) : Except Error State := writeLoop bytes.length s off bytes

/-! ## Resizing -/

/-- The conversion of an extent number to an `int`. -/
def int32 (n : Nat) : Int := (n : Int).bmod (2 ^ 32)

/-- The loop of `resize`, from the extent before `i` down to `lower`; no extent has a negative number. The
source's index is an `int`, which is not wrapped here: it is as if there were at most 2 ^ 31 extents. -/
def removeExtents (lower : Int) : Nat → State → State
  | 0, s => s
  | i + 1, s =>
    if (i : Int) < lower then s
    else
      let s := if s.extent_exists_ i then
          { s with cache := s.cache.erase i, objects := s.objects.erase i, extents_ := s.extents_.take i }
        else s
      let last := s.size_ % capacity
      removeExtents lower i
        { s with size_ := if last ≠ 0 then s.size_ - last else uint64 (s.size_ - capacity) }

/-- The last extent gets its length. -/
def resizeExtent (idx eoff : Nat) : Except Error State := do
  let (f, s) ← s.find_or_create_extent_ idx
  verify (0 < eoff) (.assertion "size > 0")
  verify (eoff ≤ capacity) (.assertion "size <= capacity()")
  pure ((s.upload idx (truncate f eoff)).mark idx)

/-- `Container::resize`. -/
def resize (size : Nat) : Except Error State := do
  let idx := size / capacity % 2 ^ 32
  let eoff := size % capacity
  let rm_idx := (if eoff ≠ 0 then idx + 1 else idx) % 2 ^ 32
  let s := removeExtents (int32 rm_idx) s.extents_.length s
  -- a whole number of extents: the last one becomes a full one
  let full := eoff = 0 ∧ 0 < idx
  let idx := if full then idx - 1 else idx
  let eoff := if full then capacity else eoff
  let s ← if eoff ≠ 0 then s.resizeExtent idx eoff else pure s
  verify (size = (idx * capacity + eoff) % 2 ^ 64) (.assertion "size == idx * Extent::capacity() + eoff")
  pure { s with size_ := size }

end State

end VolumeDriver.Filedriver
