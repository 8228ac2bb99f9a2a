/-
The server's decoder of an `AddEntries` message (`operator>>(IOBaseStream&, CommandData<AddEntries>&)`):
one buffer for the data of all entries, sized from the announced count and the size of the first
entry, and a pointer that moves through it. Addresses and sizes are 64-bit words, so sums and
products are taken modulo `2 ^ 64`; the size of an entry and of a read is a 32-bit word.
-/
import VolumeDriver.Dtl.Stream
import VolumeDriver.Lib.Triple
import Mathlib.Data.Nat.ModEq
import Mathlib.Tactic.Ring

namespace VolumeDriver

open Lib Read List Nat

/-! ## Memory -/

/-- A block of memory. -/
structure Buffer where
  addr : Nat
  size : Nat
  deriving DecidableEq, Repr

/-- The `n` bytes from address `a` on lie inside the block. -/
def Buffer.contains (b : Buffer) (a n : Nat) : Prop := b.addr ≤ a ∧ a + n ≤ b.addr + b.size

instance (b : Buffer) (a n : Nat) : Decidable (b.contains a n) := inferInstanceAs (Decidable (_ ∧ _))

/-- The allocator. It may refuse any request; a block it hands out is not at address 0 and lies
inside the 64-bit address space. -/
structure Heap where
  new : Nat → Option Nat
  reserve : Nat → Bool
  valid : ∀ n a, new n = some a → 0 < a ∧ a + n ≤ 2 ^ 64

/-! ## The decoder -/

/-- An entry, whose data are `size_` bytes from `buffer_` on. -/
structure FailOverCacheEntry where
  cli_ : ClusterLocation
  lba_ : Nat
  size_ : Nat
  buffer_ : Nat
  deriving DecidableEq, Repr

namespace AddEntries

/-- `CommandData<AddEntries>`. -/
structure CommandData where
  buf_ : Option Buffer := none
  entries_ : List FailOverCacheEntry := []
  deriving DecidableEq, Repr

/-- The message that is still to be read, the data decoded so far, and every range of memory
written through a pointer. -/
structure State where
  input : Bytes
  data : CommandData := {}
  writes : List (Nat × Nat) := []
  deriving DecidableEq, Repr

/-- The decoder throws one of the driver's exceptions or one of the standard library's. -/
inductive Error
  | exn (e : Exn)
  | bad_alloc
  | length_error
  deriving DecidableEq, Repr

/-- The decoder; when it throws, what it did so far stays. -/
abbrev M := EStateM Error State

/-- Reads from the message. -/
def recv {α : Type} (m : Read α) : M α := fun s =>
  match m s.input with
  | .ok (a, rest) => .ok a { s with input := rest }
  | .error e => .error (.exn e) s

/-- `VERIFY`. -/
def verify (p : Prop) [Decidable p] (what : String) : M Unit :=
  if p then pure () else throw (.exn (.assertion what))

/-- The most that is read at a time. -/
def STREAM_MAX_BYTEARRAY_SIZE : Nat := 64 * 1024

/-- `IOBaseStream::readIntoByteArray`. When the peer sends too little, what it sent is written
before the read throws. -/
def readIntoByteArray (buffer size : Nat) : M Unit := do
  if size > STREAM_MAX_BYTEARRAY_SIZE then
    throw (.exn (.ioException "Unexpectedly large size encountered"))
  let s ← get
  modify fun s => { s with writes := s.writes ++ [(buffer, min size s.input.length)], input := s.input.drop size }
  if s.input.length < size then
    throw (.exn (.ioException "Socket::read"))

/-- `max_size()` of a vector of entries, which take 32 bytes each. -/
def max_size : Nat := (2 ^ 63 - 1) / 32

/-- Reserves room for the entries. -/
def reserve (heap : Heap) (count : Nat) : M Unit := do
  if count > max_size then throw .length_error
  if heap.reserve count = false then throw .bad_alloc

/-- The local variables of the loop. -/
structure Cursor where
  cluster_size : Nat := 0
  ptr : Nat := 0
  deriving DecidableEq, Repr

/-- `data.buf_ = std::make_unique<uint8_t[]>(size)`, with the address of the new buffer. -/
def make_unique (heap : Heap) (size : Nat) : M Nat :=
  match heap.new size with
  | none => throw .bad_alloc
  | some a => do
    modify fun s => { s with data := { s.data with buf_ := some ⟨a, size⟩ } }
    pure a

/-- The buffer is made for the first entry; later ones must announce the same size. -/
def place (heap : Heap) (count : Nat) (c : Cursor) (sz : Int) : M Cursor := do
  let s ← get
  if c.ptr = 0 then
    verify (s.data.buf_ = none) "data.buf_ == nullptr"
    let ptr ← make_unique heap (uint64 sz * count % 2 ^ 64)
    pure { cluster_size := uint64 sz, ptr }
  else
    verify (int64 c.cluster_size = sz) "static_cast<int64_t>(cluster_size) == sz"
    verify (s.data.buf_ ≠ none) "data.buf_ != nullptr"
    pure c

/-- The data of an entry goes where the pointer is, and the pointer moves on. -/
def storeEntry (c : Cursor) (cli : ClusterLocation) (lba : Nat) : M Cursor := do
  readIntoByteArray c.ptr (c.cluster_size % 2 ^ 32)
  modify fun s =>
    { s with data := { s.data with entries_ := s.data.entries_ ++ [⟨cli, lba, c.cluster_size % 2 ^ 32, c.ptr⟩] } }
  pure { c with ptr := (c.ptr + c.cluster_size) % 2 ^ 64 }

/-- The body of the loop, after an entry's location, address and size were read. -/
def takeEntry (heap : Heap) (count : Nat) (c : Cursor) (cli : ClusterLocation) (lba : Nat) (sz : Int) : M Cursor := do
  verify (sz ≠ 0) "sz != 0"
  let c ← place heap count c sz
  storeEntry c cli lba

/-- What is read of an entry before its data. -/
def entryHeader : Read (ClusterLocation × Nat × Int) := do
  let cli ← clusterLocation
  let lba ← unsigned 8
  let sz ← long
  pure (cli, lba, sz)

/-- Decodes one entry. -/
def decodeEntry (heap : Heap) (count : Nat) (c : Cursor) : M Cursor := do
  let (cli, lba, sz) ← recv entryHeader
  takeEntry heap count c cli lba sz

/-- The loop over the entries. -/
def decodeEntries (heap : Heap) (count : Nat) : Nat → Cursor → M Cursor
  | 0, c => pure c
  | n + 1, c => do
    let c ← decodeEntry heap count c
    decodeEntries heap count n c

/-- Decodes a message. -/
def decode (heap : Heap) : M Unit := do
  let count ← recv (unsigned 8)
  reserve heap count
  let _ ← decodeEntries heap count count {}
  let s ← get
  verify (s.data.entries_.head?.map (·.cli_.sco) = s.data.entries_.getLast?.map (·.cli_.sco))
    "data.entries_.front().cli_.sco() == data.entries_.back().cli_.sco()"

/-! ## Memory safety -/

/-- Every write and every decoded entry stays inside the buffer, and every entry has the announced
size. It is a property of the state the decoder leaves behind, so nothing written before an
exception is excused. -/
structure Safe (sz : Int) (s : State) : Prop where
  writes : ∀ w ∈ s.writes, ∃ b, s.data.buf_ = some b ∧ b.contains w.1 w.2
  entries : ∀ e ∈ s.data.entries_, ∃ b, s.data.buf_ = some b ∧ b.contains e.buffer_ e.size_ ∧ (e.size_ : Int) = sz

/-- The count and the size of the first entry, as the message announces them. -/
def header : Read (Nat × Int) := do
  let count ← unsigned 8
  let (_, _, sz) ← entryHeader
  pure (count, sz)

/-- The announced count and size are refused, or describe a buffer of that many bytes. -/
def Fits (count size : Nat) : Prop :=
  count = 0 ∨ size = 0 ∨ max_size < count ∨ STREAM_MAX_BYTEARRAY_SIZE < size % 2 ^ 32 ∨
    (size ≤ STREAM_MAX_BYTEARRAY_SIZE ∧ size * count < 2 ^ 64)

/-! ### Rules for the statements of the decoder -/

section Rules

variable {α : Type} {P : State → Prop} {Q : α → State → Prop} {E : State → Prop}

theorem triple_verify {p : Prop} [Decidable p] {what : String} {Q : Unit → State → Prop} (hp : ∀ s, P s → p → Q () s)
    (he : ∀ s, P s → E s) : Triple P (verify p what) Q E :=
  .ite (fun h => .pure fun s hs => hp s hs h) fun _ => .throw he

variable {m : Read α}

theorem triple_recv (h : ∀ s rest, P s → P { s with input := rest }) (he : ∀ s, P s → E s) :
    Triple P (recv m) (fun _ => P) E := by
  intro s hs
  unfold recv
  cases m s.input with
  | ok p => exact h s p.2 hs
  | error e => exact he s hs

theorem triple_recv_of {s : State} {a : α} {rest : Bytes} (h : m s.input = .ok (a, rest)) :
    Triple (· = s) (recv m) (fun a' s' => a' = a ∧ s' = { s with input := rest }) E := by
  rintro _ rfl
  unfold recv
  rw [h]
  exact ⟨rfl, rfl⟩

theorem triple_recv_error {s : State} {e : Exn} (h : m s.input = .error e) (hE : E s) :
    Triple (· = s) (recv m) Q E := by
  rintro _ rfl
  unfold recv
  rw [h]
  exact hE

theorem triple_readIntoByteArray {buffer size : Nat} {Q : Unit → State → Prop} (hsmall : ∀ s, P s → E s)
    (h : ∀ s n rest, P s → size ≤ STREAM_MAX_BYTEARRAY_SIZE → n ≤ size →
      (n = size → Q () { s with writes := s.writes ++ [(buffer, n)], input := rest }) ∧
        E { s with writes := s.writes ++ [(buffer, n)], input := rest }) :
    Triple P (readIntoByteArray buffer size) Q E := by
  refine .ite (fun _ => .throw hsmall) fun hs => .get_bind fun s hP => ?_
  obtain ⟨h1, h2⟩ := h s (min size s.input.length) (s.input.drop size) hP (not_lt.1 hs) (min_le_left ..)
  -- the write is made, and only then the read may fail
  refine .bind (Q := fun _ s' => s' = { s with
      writes := s.writes ++ [(buffer, min size s.input.length)], input := s.input.drop size })
    (.modify fun s' hs' => by rw [hs']) fun _ => .ite (fun _ => .throw fun s' hs' => by rw [hs']; exact h2)
      fun hl => .pure fun s' hs' => ?_
  rw [hs']
  exact h1 (min_eq_left (not_lt.1 hl))

end Rules

/-! ### Counts and sizes that fit -/

/-- The buffer of a message of `count` entries of `size` bytes each. -/
structure RightSize (b : Buffer) (count size : Nat) : Prop where
  pos : 0 < b.addr
  eq : b.size = size * count
  le : b.addr + b.size ≤ 2 ^ 64

/-- The buffer is in place and nothing was done wrong so far. -/
structure Stored (b : Buffer) (size : Nat) (s : State) : Prop where
  buf : s.data.buf_ = some b
  safe : Safe size s

/-- The local variables once `i` entries are stored. -/
def cursorAt (b : Buffer) (size i : Nat) : Cursor := ⟨size, (b.addr + i * size) % 2 ^ 64⟩

variable {b : Buffer} {s : State} {size count lba k : Nat} {e : FailOverCacheEntry} {sz : Int}
  {cli : ClusterLocation} {rest bs : Bytes}

theorem Stored.write {a n : Nat} (h : Stored b size s) (hc : b.contains a n) (rest : Bytes) :
    Stored b size { s with writes := s.writes ++ [(a, n)], input := rest } := by
  refine ⟨h.buf, fun w hw => ?_, h.safe.entries⟩
  rcases mem_append.1 hw with hw | hw
  · exact h.safe.writes w hw
  · rw [mem_singleton.1 hw]
    exact ⟨b, h.buf, hc⟩

theorem Stored.entry (h : Stored b size s) (hc : b.contains e.buffer_ e.size_) (he : e.size_ = size) :
    Stored b size { s with data := { s.data with entries_ := s.data.entries_ ++ [e] } } := by
  refine ⟨h.buf, h.safe.writes, fun e' he' => ?_⟩
  rcases mem_append.1 he' with he' | he'
  · exact h.safe.entries e' he'
  · rw [mem_singleton.1 he']
    exact ⟨b, h.buf, hc, by rw [he]⟩

theorem mod_of_small (hs : size ≤ STREAM_MAX_BYTEARRAY_SIZE) : size % 2 ^ 32 = size := by
  unfold STREAM_MAX_BYTEARRAY_SIZE at hs; omega

section Fitting

variable {heap : Heap} {count size : Nat} {b : Buffer} (hb : RightSize b count size) (h0 : 0 < size)
include hb h0

variable {i : Nat}

theorem next_contained (hi : i < count) :
    (b.addr + i * size) % 2 ^ 64 = b.addr + i * size ∧ b.contains (b.addr + i * size) size := by
  have hmul : i * size + size ≤ size * count := by
    calc i * size + size = size * (i + 1) := by ring
      _ ≤ size * count := Nat.mul_le_mul_left _ hi
  have hle := hb.le
  rw [hb.eq] at hle
  refine ⟨Nat.mod_eq_of_lt (by omega), Nat.le_add_right .., ?_⟩
  rw [hb.eq]; omega

variable (hs : size ≤ STREAM_MAX_BYTEARRAY_SIZE)
include hs

theorem triple_storeEntry (cli : ClusterLocation) (lba : Nat) (hi : i < count) :
    Triple (Stored b size) (storeEntry (cursorAt b size i) cli lba)
      (fun c s => c = cursorAt b size (i + 1) ∧ Stored b size s) (Safe size) := by
  obtain ⟨hptr, hc⟩ := next_contained hb h0 hi
  unfold storeEntry cursorAt
  simp only [mod_of_small hs, hptr]
  refine .bind (Q := fun _ => Stored b size) (triple_readIntoByteArray (fun s h => h.safe) fun s n rest h _ hn => ?_)
    fun _ => .bind (Q := fun _ => Stored b size) (.modify fun s h => h.entry hc rfl) fun _ => .pure fun s h => ⟨?_, h⟩
  · have hn' : b.contains (b.addr + i * size) n := ⟨hc.1, by have := hc.2; omega⟩
    exact ⟨fun _ => h.write hn' rest, (h.write hn' rest).safe⟩
  · rw [add_mul, one_mul, add_assoc]

theorem triple_decodeEntry (hi : i < count) : Triple (Stored b size) (decodeEntry heap count (cursorAt b size i))
      (fun c s => c = cursorAt b size (i + 1) ∧ Stored b size s) (Safe size) := by
  have hptr : (cursorAt b size i).ptr ≠ 0 := by
    have := (next_contained hb h0 hi).1
    have := hb.pos
    show (b.addr + i * size) % 2 ^ 64 ≠ 0
    omega
  refine .bind (Q := fun _ => Stored b size)
    (triple_recv (fun s rest h => ⟨h.buf, h.safe.writes, h.safe.entries⟩) fun s h => h.safe) fun p => ?_
  refine .bind (Q := fun _ => Stored b size) (triple_verify (fun s h _ => h) fun s h => h.safe) fun _ => ?_
  refine .bind (Q := fun c s => c = cursorAt b size i ∧ Stored b size s) (.get_bind fun s h => ?_) fun c =>
    .of_and fun hc => hc ▸ triple_storeEntry hb h0 hs _ _ hi
  rw [if_neg hptr]
  -- only the checks on the announced size and on the buffer remain
  refine .bind (Q := fun _ => Stored b size) (triple_verify (fun s' hs' _ => hs' ▸ h) fun s' hs' => hs' ▸ h.safe)
    fun _ => ?_
  exact .bind (Q := fun _ => Stored b size) (triple_verify (fun s h _ => h) fun s h => h.safe) fun _ =>
    .pure fun s h => ⟨rfl, h⟩

theorem triple_decodeEntries : ∀ (n i : Nat), i + n = count →
    Triple (Stored b size) (decodeEntries heap count n (cursorAt b size i)) (fun _ s => Safe size s) (Safe size)
  | 0, _, _ => .pure fun _ h => h.safe
  | n + 1, i, h => by
    refine .bind (triple_decodeEntry hb h0 hs (show i < count by omega)) fun c => .of_and fun hc => ?_
    rw [hc]
    exact triple_decodeEntries n (i + 1) (by omega)

end Fitting

theorem safe_of_none (he : s.data.entries_ = []) (hw : s.writes = []) : Safe sz s := by
  constructor
  · rw [hw]; simp
  · rw [he]; simp

/-- Nothing is decoded yet. -/
def Fresh (s : State) : Prop := s.data = {} ∧ s.writes = []

theorem Fresh.safe (h : Fresh s) : Safe sz s := safe_of_none (by rw [h.1]) h.2

theorem int64_of_small (h : size ≤ STREAM_MAX_BYTEARRAY_SIZE) : int64 size = size := by
  unfold STREAM_MAX_BYTEARRAY_SIZE at h
  exact if_pos (by omega)

theorem int64_eq_zero (h : size < 2 ^ 64) : int64 size = 0 ↔ size = 0 := by
  unfold int64
  split <;> omega

theorem triple_make_unique {heap : Heap} : Triple Fresh (make_unique heap size)
      (fun a s => heap.new size = some a ∧ s.data = { buf_ := some ⟨a, size⟩ } ∧ s.writes = []) (Safe sz) := by
  unfold make_unique
  cases hn : heap.new size with
  | none => exact .throw fun s h => h.safe
  | some a =>
    refine .bind (Q := fun _ s => s.data = { buf_ := some ⟨a, size⟩ } ∧ s.writes = []) (.modify fun s h => ?_) fun _ =>
      .pure fun s h => ⟨rfl, h⟩
    obtain ⟨hd, hw⟩ := h
    rw [hd]
    exact ⟨rfl, hw⟩

theorem triple_placeFirst {heap : Heap} (hsize : size < 2 ^ 64) : Triple Fresh (place heap count {} (int64 size))
      (fun c s => heap.new (size * count % 2 ^ 64) = some c.ptr ∧ c.cluster_size = size ∧
        s.data = { buf_ := some ⟨c.ptr, size * count % 2 ^ 64⟩ } ∧ s.writes = [])
      (Safe (int64 size)) := by
  refine .get_bind fun s hs => ?_
  rw [if_pos rfl, uint64_int64 hsize]
  refine .bind (Q := fun _ => Fresh) (triple_verify (fun s' h _ => h ▸ hs) fun s' h => h ▸ hs.safe) fun _ => ?_
  exact .bind triple_make_unique fun a => .pure fun s h => ⟨h.1, rfl, h.2⟩

theorem triple_takeFirst {heap : Heap} (hsize : size < 2 ^ 64) (hcount : 0 < count)
    (hfit : size = 0 ∨ STREAM_MAX_BYTEARRAY_SIZE < size % 2 ^ 32 ∨
      (size ≤ STREAM_MAX_BYTEARRAY_SIZE ∧ size * count < 2 ^ 64)) :
    Triple Fresh (takeEntry heap count {} cli lba (int64 size))
      (fun c s => ∃ b, (RightSize b count size ∧ 0 < size ∧ size ≤ STREAM_MAX_BYTEARRAY_SIZE) ∧
        c = cursorAt b size 1 ∧ Stored b size s)
      (Safe (int64 size)) := by
  refine .bind (Q := fun _ s => 0 < size ∧ Fresh s)
    (triple_verify (fun s hs h => ⟨by rw [ne_eq, int64_eq_zero hsize] at h; omega, hs⟩) fun s hs => hs.safe) fun _ =>
    .of_and fun hpos => ?_
  refine .bind (triple_placeFirst hsize) fun c => .of_and fun hnew => .of_and fun hcs => ?_
  rcases hfit with h | hbig | ⟨hsmall, hlt⟩
  · omega
  · -- the size is refused before anything is written
    refine .bind (Q := fun _ _ => False) (triple_readIntoByteArray (fun s hs => safe_of_none (by rw [hs.1]) hs.2)
      fun s n rest _ hle _ => ?_) fun _ s h => h.elim
    rw [hcs] at hle
    omega
  · rw [mod_eq_of_lt hlt] at hnew ⊢
    obtain ⟨ha, hle⟩ := heap.valid _ _ hnew
    have hb : RightSize ⟨c.ptr, size * count⟩ count size := ⟨ha, rfl, hle⟩
    have hmul : 0 < size * count := mul_pos hpos hcount
    have hc : c = cursorAt ⟨c.ptr, size * count⟩ size 0 := by
      obtain ⟨_, p⟩ := c
      show Cursor.mk _ p = ⟨size, (p + 0 * size) % 2 ^ 64⟩
      rw [mod_eq_of_lt (by simp only at hle; omega)]
      simpa using hcs
    rw [int64_of_small hsmall]
    have hstore := triple_storeEntry hb hpos hsmall cli lba hcount
    rw [← hc] at hstore
    refine hstore.weaken (fun s hs => ?_) fun c' s hs => ⟨⟨c.ptr, size * count⟩, ⟨hb, hpos, hsmall⟩, hs⟩
    exact ⟨by rw [hs.1], safe_of_none (by rw [hs.1]) hs.2⟩

theorem triple_entries {heap : Heap} (hsize : size < 2 ^ 64) (hfresh : Fresh s)
    (hfit : count = 0 ∨ size = 0 ∨ STREAM_MAX_BYTEARRAY_SIZE < size % 2 ^ 32 ∨
      (size ≤ STREAM_MAX_BYTEARRAY_SIZE ∧ size * count < 2 ^ 64))
    (hh : entryHeader s.input = .ok ((cli, lba, int64 size), rest)) :
    Triple (· = s) (decodeEntries heap count count {}) (fun _ => Safe (int64 size)) (Safe (int64 size)) := by
  cases count with
  | zero => exact .pure fun s' h => h ▸ hfresh.safe
  | succ n =>
    refine .bind (Q := fun c s => ∃ b, (RightSize b (n + 1) size ∧ 0 < size ∧ size ≤ STREAM_MAX_BYTEARRAY_SIZE) ∧
      c = cursorAt b size 1 ∧ Stored b size s) (.bind (triple_recv_of hh) fun p => .of_and fun hp => ?_) fun c => ?_
    · rw [hp]
      refine .weaken (triple_takeFirst hsize n.succ_pos (hfit.resolve_left n.succ_ne_zero)) (fun s' h => ?_)
        fun _ _ h => h
      rw [h]
      exact hfresh
    · rintro s ⟨b, ⟨hb, h0, hs⟩, hc, hst⟩
      rw [hc, int64_of_small hs]
      exact triple_decodeEntries hb h0 hs n 1 (by omega) s hst

theorem header_ok (h : header bs = .ok ((count, sz), rest)) :
    ∃ bs' cli lba, unsigned 8 bs = .ok (count, bs') ∧ entryHeader bs' = .ok ((cli, lba, sz), rest) := by
  obtain ⟨⟨count', bs'⟩, h1, h⟩ := bind_ok h
  obtain ⟨⟨⟨cli, lba, sz'⟩, rest'⟩, h2, h⟩ := bind_ok h
  cases h
  exact ⟨bs', cli, lba, h1, h2⟩

theorem triple_reserve {heap : Heap} {E : State → Prop} (hE : E s) :
    Triple (· = s) (reserve heap count) (fun _ s' => count ≤ max_size ∧ s' = s) E := by
  refine .ite (fun _ => .throw fun s' h => h ▸ hE) fun hmax => ?_
  exact .ite (fun _ => .throw fun s' h => h ▸ hE) fun _ => .pure fun s' h => ⟨not_lt.1 hmax, h⟩

theorem safe_of_entries {heap : Heap} {bs' : Bytes} (h : unsigned 8 bs = .ok (count, bs')) (hloop : count ≤ max_size →
      Triple (· = { input := bs' }) (decodeEntries heap count count {}) (fun _ => Safe sz) (Safe sz)) :
    Safe sz (after (decode heap) { input := bs }) := by
  have hfresh : Fresh { input := bs' } := ⟨rfl, rfl⟩
  refine Triple.after (P := (· = { input := bs })) ?_ rfl
  refine .bind (triple_recv_of h) fun c => .of_and fun hc => ?_
  rw [hc]
  refine .bind (triple_reserve hfresh.safe) fun _ => .of_and fun hmax => ?_
  refine .bind (hloop hmax) fun _ => .get_bind fun s hs => ?_
  exact triple_verify (fun s' h _ => h ▸ hs) fun s' h => h ▸ hs

theorem safe_of_fits {heap : Heap} (hsize : size < 2 ^ 64) (hfit : Fits count size)
    (hh : header bs = .ok ((count, int64 size), rest)) : Safe (int64 size) (after (decode heap) { input := bs }) := by
  obtain ⟨bs', cli, lba, h1, h2⟩ := header_ok hh
  refine safe_of_entries h1 fun hmax => triple_entries hsize ⟨rfl, rfl⟩ ?_ h2
  rcases hfit with h | h | h | h
  · exact .inl h
  · exact .inr (.inl h)
  · omega
  · exact .inr (.inr h)

theorem safe_of_no_header {heap : Heap} {e : Exn} (hh : header bs = .error e) (sz : Int) :
    Safe sz (after (decode heap) { input := bs }) := by
  cases h1 : unsigned 8 bs with
  | error e' =>
    refine Triple.after (P := (· = { input := bs })) (.bind (Q := fun _ _ => False) ?_ fun _ s h => h.elim) rfl
    exact triple_recv_error h1 (Fresh.safe ⟨rfl, rfl⟩)
  | ok p =>
    refine safe_of_entries h1 fun _ => ?_
    cases hc : p.1 with
    | zero => exact .pure fun s h => h ▸ Fresh.safe ⟨rfl, rfl⟩
    | succ n =>
      obtain ⟨e', h2⟩ : ∃ e', entryHeader p.2 = .error e' := by
        cases h2 : entryHeader p.2 with
        | error e' => exact ⟨e', rfl⟩
        | ok q =>
          unfold header at hh
          rw [bind_of h1, bind_of h2] at hh
          cases hh
      exact .bind (Q := fun _ _ => False) (.bind (Q := fun _ _ => False) (triple_recv_error h2 (Fresh.safe ⟨rfl, rfl⟩))
        fun _ s h => h.elim) fun _ s h => h.elim

/-! ### Counts and sizes that do not fit -/

namespace Sample

/-- An allocator that grants every request, at address 1. -/
def heap : Heap where
  new n := if n < 2 ^ 64 then some 1 else none
  reserve _ := true
  valid n a h := by
    split at h
    · cases h; omega
    · cases h

/-- Where the clusters of the samples are. -/
def loc : ClusterLocation := ⟨⟨1, 0, 0⟩, 0⟩

/-- An entry that announces `size` bytes of data and comes with as many as the decoder reads. -/
def entry (size : Nat) : Bytes :=
  Put.clusterLocation loc ++ (toLE 8 0 ++ (toLE 8 size ++ replicate (size % 2 ^ 32) 0))

/-- A message that announces `count` entries and holds `k`. -/
def message (count size k : Nat) : Bytes := toLE 8 count ++ (replicate k (entry size)).flatten

end Sample

open Sample

theorem entryHeader_entry (h : size < 2 ^ 64) (rest : Bytes) :
    entryHeader (entry size ++ rest) = .ok ((loc, 0, int64 size), replicate (size % 2 ^ 32) 0 ++ rest) := by
  unfold entryHeader entry
  simp only [append_assoc]
  rw [bind_of (clusterLocation_put ⟨by decide, by decide, by decide, by decide⟩ _),
    bind_of (unsigned_toLE _ (by decide)), bind_of (long_toLE _ h)]
  rfl

theorem storeEntry_run {c : Cursor} (hsmall : c.cluster_size % 2 ^ 32 ≤ STREAM_MAX_BYTEARRAY_SIZE)
    (hlen : bs.length = c.cluster_size % 2 ^ 32)
    (hin : s.input = bs ++ rest) :
    storeEntry c cli lba s = .ok { c with ptr := (c.ptr + c.cluster_size) % 2 ^ 64 }
      { input := rest
        data := { s.data with entries_ := s.data.entries_ ++ [⟨cli, lba, c.cluster_size % 2 ^ 32, c.ptr⟩] }
        writes := s.writes ++ [(c.ptr, c.cluster_size % 2 ^ 32)] } := by
  have hread : readIntoByteArray c.ptr (c.cluster_size % 2 ^ 32) s =
      .ok () { s with writes := s.writes ++ [(c.ptr, c.cluster_size % 2 ^ 32)], input := rest } := by
    have hl : ¬ s.input.length < c.cluster_size % 2 ^ 32 := by rw [hin, length_append]; omega
    unfold readIntoByteArray
    rw [if_neg (not_lt.2 hsmall)]
    refine run_get_bind.trans ?_
    simp only [if_neg hl]
    refine (run_bind (show (modify _ : M PUnit) s = .ok ⟨⟩ _ from rfl)).trans ?_
    rw [min_eq_left (not_lt.1 hl), hin, ← hlen, drop_left]
    rfl
  unfold storeEntry
  rw [run_bind hread]
  rfl

theorem decodeEntry_run {c : Cursor} (rest : Bytes) (hsize : size < 2 ^ 64) (h0 : size ≠ 0)
    (hsmall : size % 2 ^ 32 ≤ STREAM_MAX_BYTEARRAY_SIZE)
    (hc : (k = 0 ∧ c = {} ∧ s.data.buf_ = none) ∨
      (c = cursorAt ⟨1, size * count % 2 ^ 64⟩ size k ∧ c.ptr ≠ 0 ∧ s.data.buf_ = some ⟨1, size * count % 2 ^ 64⟩))
    (hin : s.input = entry size ++ rest) :
    ∃ s', decodeEntry heap count c s = .ok (cursorAt ⟨1, size * count % 2 ^ 64⟩ size (k + 1)) s' ∧ s'.input = rest ∧
      s'.data.buf_ = some ⟨1, size * count % 2 ^ 64⟩ ∧
      s'.data.entries_ = s.data.entries_ ++ [⟨loc, 0, size % 2 ^ 32, (1 + k * size) % 2 ^ 64⟩] ∧
      s'.writes = s.writes ++ [((1 + k * size) % 2 ^ 64, size % 2 ^ 32)] := by
  have hrecv : recv entryHeader s =
      .ok (loc, 0, int64 size) { s with input := replicate (size % 2 ^ 32) 0 ++ rest } := by
    unfold recv
    rw [hin, entryHeader_entry hsize]
  have hne : int64 size ≠ 0 := by rw [ne_eq, int64_eq_zero hsize]; exact h0
  -- both for the first entry and for a later one the cursor ends up behind the `k` entries
  obtain ⟨d, hplace, hd, he⟩ : ∃ d : CommandData,
      place heap count c (int64 size) { s with input := replicate (size % 2 ^ 32) 0 ++ rest } =
        .ok (cursorAt ⟨1, size * count % 2 ^ 64⟩ size k)
          { s with input := replicate (size % 2 ^ 32) 0 ++ rest, data := d } ∧
      d.buf_ = some ⟨1, size * count % 2 ^ 64⟩ ∧ d.entries_ = s.data.entries_ := by
    rcases hc with ⟨rfl, rfl, hbuf⟩ | ⟨rfl, hptr, hbuf⟩
    · refine ⟨{ s.data with buf_ := some ⟨1, size * count % 2 ^ 64⟩ }, ?_, rfl, rfl⟩
      have hv : verify (s.data.buf_ = none) "data.buf_ == nullptr" = pure () := if_pos hbuf
      have hnew : heap.new (size * count % 2 ^ 64) = some 1 := if_pos (mod_lt _ (by decide))
      unfold place
      refine run_get_bind.trans ?_
      simp only [if_pos, hv, pure_bind, make_unique, uint64_int64 hsize, hnew]
      simp [cursorAt]
      rfl
    · refine ⟨s.data, ?_, hbuf, rfl⟩
      have hv : verify (s.data.buf_ ≠ none) "data.buf_ != nullptr" = pure () := if_pos (by simp [hbuf])
      have hv' : verify (int64 (cursorAt ⟨1, size * count % 2 ^ 64⟩ size k).cluster_size = int64 size)
        "static_cast<int64_t>(cluster_size) == sz" = pure () := if_pos rfl
      unfold place
      refine run_get_bind.trans ?_
      simp only [if_neg hptr, hv, hv', pure_bind]
      rfl
  have hstore : storeEntry (cursorAt ⟨1, size * count % 2 ^ 64⟩ size k) loc 0
      { s with input := replicate (size % 2 ^ 32) 0 ++ rest, data := d } = _ :=
    storeEntry_run hsmall (length_replicate ..) rfl
  have hnext : ((1 + k * size) % 2 ^ 64 + size) % 2 ^ 64 = (1 + (k + 1) * size) % 2 ^ 64 := by
    rw [mod_add_mod, add_mul, one_mul, add_assoc]
  refine ⟨{ input := rest
            data := { d with entries_ := d.entries_ ++ [⟨loc, 0, size % 2 ^ 32, (1 + k * size) % 2 ^ 64⟩] }
            writes := s.writes ++ [((1 + k * size) % 2 ^ 64, size % 2 ^ 32)] }, ?_, rfl, hd, by simp only [he], rfl⟩
  unfold decodeEntry takeEntry
  refine (run_bind hrecv).trans ?_
  have hv : verify (int64 size ≠ 0) "sz != 0" = pure () := if_pos hne
  simp only [hv, pure_bind]
  refine (run_bind hplace).trans (hstore.trans ?_)
  simp only [cursorAt, hnext]

/-- The first `k + 1` entries of a sample message are stored one behind the other, as long as no
pointer wraps around to 0. -/
theorem decodeEntries_run {n : Nat} (hsize : size < 2 ^ 64) (h0 : size ≠ 0)
    (hsmall : size % 2 ^ 32 ≤ STREAM_MAX_BYTEARRAY_SIZE) : ∀ (k i : Nat) (c : Cursor) (s : State),
    ((i = 0 ∧ c = {} ∧ s.data.buf_ = none) ∨
      (c = cursorAt ⟨1, size * count % 2 ^ 64⟩ size i ∧ c.ptr ≠ 0 ∧ s.data.buf_ = some ⟨1, size * count % 2 ^ 64⟩)) →
    (∀ j, i < j → j ≤ i + k → (1 + j * size) % 2 ^ 64 ≠ 0) →
    s.input = (replicate (k + 1) (entry size)).flatten →
    ∃ c' s', decodeEntries heap count (k + 1 + n) c s = decodeEntries heap count n c' s' ∧
      s'.data.buf_ = some ⟨1, size * count % 2 ^ 64⟩ ∧
      ⟨loc, 0, size % 2 ^ 32, (1 + (i + k) * size) % 2 ^ 64⟩ ∈ s'.data.entries_ ∧
      ((1 + (i + k) * size) % 2 ^ 64, size % 2 ^ 32) ∈ s'.writes
  | 0, i, c, s, hc, _, hin => by
    obtain ⟨s', hrun, -, hbuf, he, hw⟩ := decodeEntry_run [] hsize h0 hsmall hc (by simpa using hin)
    refine ⟨cursorAt ⟨1, size * count % 2 ^ 64⟩ size (i + 1), s', ?_, hbuf, by simp [he], by simp [hw]⟩
    rw [zero_add, add_comm]
    exact run_bind hrun
  | k + 1, i, c, s, hc, hptr, hin => by
    obtain ⟨s₁, hrun, hin₁, hbuf, -, -⟩ := decodeEntry_run
      (replicate (k + 1) (entry size)).flatten hsize h0 hsmall hc (by rw [hin, replicate_succ]; rfl)
    obtain ⟨c', s', h, hb, he, hw⟩ := decodeEntries_run hsize h0 hsmall (n := n) k (i + 1) _ s₁
      (.inr ⟨rfl, hptr (i + 1) (by omega) (by omega), hbuf⟩) (fun j h1 h2 => hptr j (by omega) (by omega)) hin₁
    rw [show i + 1 + k = i + (k + 1) by omega] at he hw
    refine ⟨c', s', ?_, hb, he, hw⟩
    rw [← h, show k + 1 + 1 + n = (k + 1 + n) + 1 by omega]
    exact run_bind hrun

/-- A buffer in place, a write and an entry. -/
structure Kept (b : Buffer) (w : Nat × Nat) (e : FailOverCacheEntry) (s : State) : Prop where
  buf : s.data.buf_ = some b
  write : w ∈ s.writes
  entry : e ∈ s.data.entries_

/-- What is written and decoded stays, whatever the rest of the message. -/
theorem triple_kept {heap : Heap} {w : Nat × Nat} (c : Cursor) :
    Triple (Kept b w e) (decodeEntry heap count c) (fun _ => Kept b w e) (Kept b w e) := by
  refine .bind (Q := fun _ => Kept b w e) (triple_recv (fun s rest h => { h with }) fun s h => h) fun p => ?_
  refine .bind (Q := fun _ => Kept b w e) (triple_verify (fun s h _ => h) fun s h => h) fun _ => ?_
  refine .bind (Q := fun _ => Kept b w e) (.get_bind fun s h => .ite (fun _ => ?_) fun _ => ?_) fun c => ?_
  · -- a pointer that came back to 0 is refused, as there is a buffer already
    refine .bind (Q := fun _ _ => False) (triple_verify (fun s' hs' hn => ?_) fun s' hs' => hs' ▸ h) fun _ s h => h.elim
    rw [h.buf] at hn; cases hn
  · refine .bind (Q := fun _ => Kept b w e) (triple_verify (fun s' hs' _ => hs' ▸ h) fun s' hs' => hs' ▸ h) fun _ => ?_
    exact .bind (Q := fun _ => Kept b w e) (triple_verify (fun s h _ => h) fun s h => h) fun _ => .pure fun s h => h
  · refine .bind (Q := fun _ => Kept b w e) (triple_readIntoByteArray (fun s h => h) fun s n rest h _ _ => ?_)
      fun _ => ?_
    · have hk : Kept b w e { s with writes := s.writes ++ [(c.ptr, n)], input := rest } :=
        ⟨h.buf, mem_append_left _ h.write, h.entry⟩
      exact ⟨fun _ => hk, hk⟩
    · exact .bind (Q := fun _ => Kept b w e) (.modify fun s h => ⟨h.buf, h.write, mem_append_left _ h.entry⟩) fun _ =>
        .pure fun s h => h

theorem triple_keptAll {heap : Heap} {w : Nat × Nat} :
    ∀ (n : Nat) (c : Cursor), Triple (Kept b w e) (decodeEntries heap count n c) (fun _ => Kept b w e) (Kept b w e)
  | 0, _ => .pure fun _ h => h
  | n + 1, c => .bind (triple_kept c) fun c => triple_keptAll n c

theorem message_eq (count size k : Nat) :
    message count size (k + 1) = toLE 8 count ++ (entry size ++ (replicate k (entry size)).flatten) := rfl

theorem header_message (hcount : count < 2 ^ 64) (hsize : size < 2 ^ 64) :
    ∃ rest, header (message count size (k + 1)) = .ok ((count, int64 size), rest) := by
  refine ⟨replicate (size % 2 ^ 32) 0 ++ (replicate k (entry size)).flatten, ?_⟩
  unfold header
  rw [message_eq, bind_of (unsigned_toLE _ hcount), bind_of (entryHeader_entry hsize _)]
  rfl

theorem max_size_lt : max_size < 2 ^ 64 := by decide

/-- After `k + 1` entries of a sample message, none of whose pointers is 0, the last of them is
in the result, wherever its data went. -/
theorem decode_message (hcount : count ≤ max_size) (hk : k < count) (hsize : size < 2 ^ 64) (h0 : size ≠ 0)
    (hsmall : size % 2 ^ 32 ≤ STREAM_MAX_BYTEARRAY_SIZE)
    (hptr : ∀ j, 0 < j → j ≤ k → (1 + j * size) % 2 ^ 64 ≠ 0) :
    Kept ⟨1, size * count % 2 ^ 64⟩ ((1 + k * size) % 2 ^ 64, size % 2 ^ 32)
      ⟨loc, 0, size % 2 ^ 32, (1 + k * size) % 2 ^ 64⟩
      (after (decode heap) { input := message count size (k + 1) }) := by
  have hmax := max_size_lt
  have hrecv : recv (unsigned 8) { input := message count size (k + 1) } =
      .ok count { input := (replicate (k + 1) (entry size)).flatten } := by
    unfold recv
    rw [show unsigned 8 (message count size (k + 1)) = _ from unsigned_toLE _ (show count < 256 ^ 8 by omega)]
  have hreserve : ∀ s, reserve heap count s = .ok () s := fun s => by
    unfold reserve
    rw [if_neg (not_lt.2 hcount)]
    rfl
  obtain ⟨n, rfl⟩ : ∃ n, count = k + 1 + n := ⟨count - (k + 1), by omega⟩
  obtain ⟨c', s', hrun, hbuf, he, hw⟩ := decodeEntries_run hsize h0 hsmall (n := n) k 0 {}
    { input := (replicate (k + 1) (entry size)).flatten } (.inl ⟨rfl, rfl, rfl⟩)
    (fun j h1 h2 => hptr j h1 (by omega)) rfl
  rw [zero_add] at he hw
  unfold decode
  rw [after_bind hrecv, after_bind (hreserve _), after_bind_congr hrun]
  refine Triple.after (.bind (triple_keptAll n c') fun _ => .get_bind fun s hs => ?_) ⟨hbuf, hw, he⟩
  exact triple_verify (fun s' h _ => h ▸ hs) fun s' h => h ▸ hs

/-- A size whose low 32 bits are no more than what is read at a time, but which is larger, is not
the size of the entry that is stored. -/
theorem unsafe_of_large (hcount : count ≤ max_size) (hpos : 0 < count) (hsize : size < 2 ^ 64)
    (hlarge : STREAM_MAX_BYTEARRAY_SIZE < size) (hsmall : size % 2 ^ 32 ≤ STREAM_MAX_BYTEARRAY_SIZE) :
    ¬ Safe (int64 size) (after (decode heap) { input := message count size (0 + 1) }) := by
  intro hsafe
  have hk := decode_message hcount hpos hsize (by omega) hsmall fun j h1 h2 => absurd h1 (not_lt.2 h2)
  obtain ⟨b, -, -, heq⟩ := hsafe.entries _ hk.entry
  have heq' : ((size % 2 ^ 32 : Nat) : Int) = int64 size := heq
  unfold int64 at heq'
  split at heq' <;> omega

/-- When the size of the buffer wraps around, the pointers of the entries that start inside it
are not 0. -/
theorem ptr_ne_zero {j : Nat} (hcount : count < 2 ^ 64) (hwrap : 2 ^ 64 ≤ size * count)
    (hj : j ≤ size * count % 2 ^ 64 / size) : (1 + j * size) % 2 ^ 64 ≠ 0 := by
  intro h
  have hle : j * size ≤ size * count % 2 ^ 64 :=
    (Nat.mul_le_mul_right _ hj).trans (Nat.div_mul_le_self ..)
  have hj64 : j * size = 2 ^ 64 - 1 := by omega
  -- then `size` is odd and the size of the buffer is `j * size`: the product did not wrap
  have hmod : size * count ≡ size * j [MOD 2 ^ 64] := by
    show size * count % 2 ^ 64 = size * j % 2 ^ 64
    rw [Nat.mul_comm size j, hj64]; omega
  have hcop : Nat.gcd (2 ^ 64) size = 1 := by
    have hd : Nat.gcd (2 ^ 64) size ∣ j * size + 1 := by
      rw [show j * size + 1 = 2 ^ 64 by omega]
      exact Nat.gcd_dvd_left ..
    exact Nat.dvd_one.1 ((Nat.dvd_add_right (Dvd.dvd.mul_left (Nat.gcd_dvd_right ..) j)).1 hd)
  have hjc : count % 2 ^ 64 = j % 2 ^ 64 := Nat.ModEq.cancel_left_of_coprime hcop hmod
  have hsize : 0 < size := Nat.pos_of_ne_zero fun hz => by rw [hz] at hj64; omega
  have hlt : j < 2 ^ 64 := by
    have := Nat.le_mul_of_pos_right j hsize
    omega
  rw [Nat.mod_eq_of_lt hcount, Nat.mod_eq_of_lt hlt] at hjc
  rw [hjc, Nat.mul_comm] at hwrap
  omega

/-- When the size of the buffer wraps around, the data of some entry ends behind it. -/
theorem unsafe_of_wrap (hcount : count ≤ max_size) (h0 : size ≠ 0) (hsmall : size ≤ STREAM_MAX_BYTEARRAY_SIZE)
    (hwrap : 2 ^ 64 ≤ size * count) :
    ¬ Safe (int64 size)
      (after (decode heap) { input := message count size (size * count % 2 ^ 64 / size + 1) }) := by
  intro hsafe
  have hmax := max_size_lt
  -- the first entry that does not end inside the buffer still starts inside it
  have hk : size * count % 2 ^ 64 / size < count := by
    rw [div_lt_iff_lt_mul (pos_of_ne_zero h0), mul_comm count]
    omega
  have hstart : size * count % 2 ^ 64 / size * size ≤ size * count % 2 ^ 64 := div_mul_le_self ..
  have hend : size * count % 2 ^ 64 < size * count % 2 ^ 64 / size * size + size :=
    lt_div_mul_add (pos_of_ne_zero h0)
  have hptr := ptr_ne_zero (by omega) hwrap le_rfl
  have hkept := decode_message hcount hk (by unfold STREAM_MAX_BYTEARRAY_SIZE at hsmall; omega) h0
    (by rw [mod_of_small hsmall]; exact hsmall) fun j _ hj => ptr_ne_zero (by omega) hwrap hj
  obtain ⟨b, hb, -, hle⟩ := hsafe.writes _ hkept.write
  rw [hkept.buf] at hb
  cases hb
  have hle' : (1 + size * count % 2 ^ 64 / size * size) % 2 ^ 64 + size ≤ 1 + size * count % 2 ^ 64 := by
    rw [mod_of_small hsmall] at hle
    exact hle
  rw [mod_eq_of_lt (by omega)] at hle'
  omega

/-- Decoding a message is memory safe, whatever follows and whatever the allocator does, exactly
when its count and the size of its first entry fit; a message too short to announce them is always
decoded safely. -/
theorem decode_safe_iff_fits (count size : UInt64) :
    ((∀ (heap : Heap) (bs rest : Bytes), header bs = .ok ((count.toNat, int64 size.toNat), rest) →
        Safe (int64 size.toNat) (after (decode heap) { input := bs })) ↔ Fits count.toNat size.toNat) ∧
      ∀ (heap : Heap) (bs : Bytes) (e : Exn), header bs = .error e →
        ∀ sz, Safe sz (after (decode heap) { input := bs }) := by
  refine ⟨⟨fun h => ?_, fun hfit heap bs rest hh => safe_of_fits size.toNat_lt hfit hh⟩,
    fun heap bs e h sz => safe_of_no_header h sz⟩
  have hcount := count.toNat_lt
  have hsize := size.toNat_lt
  generalize count.toNat = count at *
  generalize size.toNat = size at *
  -- a message that fits for none of the reasons is the prefix of an unsafe one
  by_contra hfit
  unfold Fits at hfit
  push Not at hfit
  obtain ⟨hpos, h0, hmax, hsmall, hmul⟩ := hfit
  by_cases hlarge : STREAM_MAX_BYTEARRAY_SIZE < size
  · obtain ⟨rest, hh⟩ := header_message (k := 0) hcount hsize
    exact unsafe_of_large hmax (pos_of_ne_zero hpos) hsize hlarge hsmall (h heap _ rest hh)
  · obtain ⟨rest, hh⟩ := header_message (k := size * count % 2 ^ 64 / size) hcount hsize
    exact unsafe_of_wrap hmax h0 (not_lt.1 hlarge) (hmul (not_lt.1 hlarge)) (h heap _ rest hh)

/-- Two entries that announce `2 ^ 63 + 1` bytes each: the buffer has 2 bytes, the decoder reads
one byte for each entry, and returns normally with the second one `2 ^ 63 + 1` bytes behind the
first. -/
theorem decode_writes_outside :
    returns (decode heap) { input := message 2 (2 ^ 63 + 1) 2 } = true ∧
    (after (decode heap) { input := message 2 (2 ^ 63 + 1) 2 }).data.buf_ = some ⟨1, 2⟩ ∧
    (after (decode heap) { input := message 2 (2 ^ 63 + 1) 2 }).writes = [(1, 1), (2 ^ 63 + 2, 1)] ∧
    ¬ (Buffer.mk 1 2).contains (2 ^ 63 + 2) 1 := by
  decide

end AddEntries

end VolumeDriver
