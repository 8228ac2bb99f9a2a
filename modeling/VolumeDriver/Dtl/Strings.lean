/-
Strings on the DTL's wire (`IOBaseStream::writeString_`, `readString_`): a signed length of eight bytes and the
bytes. The reader has a buffer of fixed size on its stack, ends it with a zero byte and makes a C string of it.
What is behind the buffer in memory is part of the model, so that writes there can be seen.
-/
import Mathlib.Data.List.TakeWhile
import VolumeDriver.Dtl.Stream
import VolumeDriver.Lib.Memory
import VolumeDriver.Lib.Triple

namespace VolumeDriver.Dtl

open Lib Function List

/-- The size of the reader's buffer. -/
def STREAM_MAX_STRING_SIZE : Nat := 1024

/-- What is still to be received, the memory from the start of the buffer on, and which of its places were
written to. -/
structure Frame where
  input : Bytes
  buf : Nat → UInt8
  written : List Nat := []

/-- Every write was to the buffer. -/
def Frame.InBounds (f : Frame) : Prop := ∀ i ∈ f.written, i < STREAM_MAX_STRING_SIZE

/-- The reader; one that throws keeps what it wrote. -/
abbrev Reader := EStateM Exn Frame

namespace Reader

/-- `buf[i] = b`. -/
def poke (i : Nat) (b : UInt8) : Reader Unit :=
  modify fun f => { f with buf := update f.buf i b, written := f.written ++ [i] }

/-- `read(buf, n)`. When the peer does not send enough, any part may have been written. -/
def read (n : Nat) : Reader Unit := fun f =>
  if n ≤ f.input.length then
    .ok () { input := f.input.drop n, buf := store f.buf 0 (f.input.take n), written := f.written ++ List.range n }
  else .error (.ioException "Socket::read") { f with written := f.written ++ List.range n }

/-- Reads a signed integer of eight bytes. -/
def readLong_ : Reader Int := fun f =>
  match Read.long f.input with
  | .ok (l, rest) => .ok l { f with input := rest }
  | .error e => .error e f

/-- The C string at the start of the buffer, which ends before the byte `n` at the latest. -/
def cString (n : Nat) : Reader Bytes := fun f => .ok ((slice f.buf 0 n).takeWhile (· ≠ 0)) f

/-- The start of a string that is too long is read for the log. -/
def logged (l : Int) : Reader Unit :=
  if 0 < l then do
    poke (STREAM_MAX_STRING_SIZE - 1) 0
    read (STREAM_MAX_STRING_SIZE - 1)
  else pure ()

/-- `readString_`. -/
def readString_ : Reader Bytes := do
  let l ← readLong_
  if l = -1 ∨ l = 0 then pure []
  else if l < 0 ∨ (STREAM_MAX_STRING_SIZE : Int) < l then do
    logged l
    throw (.ioException "Unexpectedly large size encountered for string")
  else do
    poke l.toNat 0
    poke 0 0
    read l.toNat
    cString (l.toNat + 1)

end Reader

/-- `writeString_`. -/
def writeString_ (s : Bytes) : Bytes := toLE 8 s.length ++ s

/-! ## Where the reader writes -/

/-- The length that a message announces, if it is long enough to do so. -/
def announced (input : Bytes) : Option Int := (Read.long input).toOption.map Prod.fst

section
variable (f : Frame)

theorem poke_run (i : Nat) (b : UInt8) :
    Reader.poke i b f = .ok () { f with buf := update f.buf i b, written := f.written ++ [i] } := rfl

theorem read_written {α : Type} (n : Nat) {k : Reader α} (hk : ∀ g, (after k g).written = g.written) :
    (after (do Reader.read n; k) f).written = f.written ++ List.range n := by
  by_cases h : n ≤ f.input.length
  · have hok : Reader.read n f = .ok ()
        ⟨f.input.drop n, store f.buf 0 (f.input.take n), f.written ++ List.range n⟩ := if_pos h
    rw [after_bind hok, hk]
  · have herr : Reader.read n f =
        .error (.ioException "Socket::read") { f with written := f.written ++ List.range n } := if_neg h
    rw [after_error (run_bind_error herr)]

theorem logged_written (l : Int) (e : Exn) : (after (do Reader.logged l; throw e : Reader Bytes) f).written =
      f.written ++ if 0 < l then (STREAM_MAX_STRING_SIZE - 1) :: List.range (STREAM_MAX_STRING_SIZE - 1) else [] := by
  unfold Reader.logged
  split
  · rw [bind_assoc, after_bind (poke_run f _ _), read_written _ _ fun _ => rfl]
    simp
  · rw [append_nil]
    rfl

theorem accepted_written (n m : Nat) :
    (after (do Reader.poke n 0; Reader.poke 0 0; Reader.read n; Reader.cString m) f).written =
      f.written ++ ([n, 0] ++ List.range n) := by
  rw [after_bind (poke_run f n 0), after_bind (poke_run _ 0 0), read_written _ _ fun _ => rfl]
  simp

end

theorem inBounds_append {f : Frame} (h : f.written = []) {g : Frame} {is : List Nat}
    (hg : g.written = f.written ++ is) : g.InBounds ↔ ∀ i ∈ is, i < STREAM_MAX_STRING_SIZE := by
  unfold Frame.InBounds
  rw [hg, h, nil_append]

theorem readString_inBounds (input : Bytes) (buf : Nat → UInt8) :
    (after Reader.readString_ { input := input, buf := buf }).InBounds ↔
      announced input ≠ some (STREAM_MAX_STRING_SIZE : Int) := by
  unfold announced Reader.readString_
  cases hlong : Read.long input with
  | error e =>
    have hrun : Reader.readLong_ { input := input, buf := buf } = .error e { input := input, buf := buf } := by
      unfold Reader.readLong_
      rw [hlong]
    rw [after_error (run_bind_error hrun)]
    simp [Frame.InBounds, Except.toOption]
  | ok p =>
    obtain ⟨l, rest⟩ := p
    have hrun : Reader.readLong_ { input := input, buf := buf } = .ok l { input := rest, buf := buf } := by
      unfold Reader.readLong_
      rw [hlong]
    have hsize : STREAM_MAX_STRING_SIZE = 1024 := rfl
    rw [after_bind hrun]
    simp only [Except.toOption, Option.map_some, ne_eq, Option.some.injEq]
    split
    · next hsmall =>
      rw [hsize]
      constructor
      · intro _
        omega
      · intro _ i hi
        cases hi
    · next hlarge =>
      split
      · next hrefused =>
        rw [inBounds_append rfl (logged_written { input := rest, buf := buf } l _), hsize]
        constructor
        · intro _
          omega
        · intro _ i hi
          split at hi
          · rcases mem_cons.1 hi with rfl | hi
            · omega
            · have := mem_range.1 hi
              omega
          · cases hi
      · next haccepted =>
        rw [inBounds_append rfl (accepted_written { input := rest, buf := buf } l.toNat (l.toNat + 1)), hsize]
        constructor
        · intro h heq
          have := h l.toNat (by simp)
          omega
        · intro hne i hi
          rcases mem_append.1 hi with hi | hi
          · simp only [mem_cons, not_mem_nil, or_false] at hi
            omega
          · have := mem_range.1 hi
            omega

/-! ## What the reader returns -/

theorem slice_terminated (buf : Nat → UInt8) (s : Bytes) :
    slice (store (update (update buf s.length 0) 0 0) 0 s) 0 (s.length + 1) = s ++ [0] := by
  rw [slice_add, slice_store_self]
  have hlast : store (update (update buf s.length 0) 0 0) 0 s s.length = 0 := by
    rw [store_of_outside (by omega)]
    by_cases h0 : s.length = 0
    · rw [h0]
      exact update_self ..
    · rw [update_of_ne h0]
      exact update_self ..
  simp [slice, hlast]

theorem takeWhile_terminated (s : Bytes) : (s ++ [0]).takeWhile (· ≠ 0) = s.takeWhile (· ≠ 0) := by
  induction s with
  | nil => rfl
  | cons b s ih =>
    rw [cons_append, takeWhile_cons, takeWhile_cons, ih]

/-- A string that was written comes back up to its first zero byte, unless it is too long. -/
theorem readString_writeString (buf : Nat → UInt8) {s : Bytes} (rest : Bytes) (hs : s.length < 2 ^ 63) :
    (∃ e g, Reader.readString_ { input := writeString_ s ++ rest, buf := buf } = .error e g) ∨
      ∃ g, Reader.readString_ { input := writeString_ s ++ rest, buf := buf } = .ok (s.takeWhile (· ≠ 0)) g ∧
        g.input = rest := by
  have hlong : Reader.readLong_ { input := writeString_ s ++ rest, buf := buf } =
      .ok (s.length : Int) { input := s ++ rest, buf := buf } := by
    unfold Reader.readLong_ writeString_
    rw [append_assoc, Read.long_toLE (s ++ rest) (by omega), int64, if_pos hs]
  unfold Reader.readString_
  rw [run_bind hlong]
  split
  · next hsmall =>
    obtain rfl : s = [] := length_eq_zero_iff.1 (by omega)
    exact Or.inr ⟨_, rfl, rfl⟩
  · next hpos =>
    split
    · -- the length is refused, whatever can be read for the log
      left
      cases hlog : Reader.logged (s.length : Int) { input := s ++ rest, buf := buf } with
      | ok u g =>
        rw [run_bind hlog]
        exact ⟨_, g, rfl⟩
      | error e g =>
        rw [run_bind_error hlog]
        exact ⟨e, g, rfl⟩
    · right
      rw [Int.toNat_natCast, run_bind (poke_run _ _ _), run_bind (poke_run _ _ _)]
      have hread : ∀ mem written, Reader.read s.length ⟨s ++ rest, mem, written⟩ =
          .ok () ⟨rest, store mem 0 s, written ++ List.range s.length⟩ := by
        intro mem written
        unfold Reader.read
        rw [if_pos (by simp), take_left, drop_left]
      rw [run_bind (hread _ _)]
      unfold Reader.cString
      rw [slice_terminated, takeWhile_terminated]
      exact ⟨_, rfl, rfl⟩

/-- The reader stays in its buffer unless the message announces 1024 bytes, and a string that it returns is the
one that was written unless that had a zero byte. -/
theorem string_framing (buf : Nat → UInt8) (input s rest : Bytes) (hs : s.length < 2 ^ 63) :
    ((after Reader.readString_ { input := input, buf := buf }).InBounds ↔
        announced input ≠ some (STREAM_MAX_STRING_SIZE : Int)) ∧
      ∀ t, result Reader.readString_ { input := writeString_ s ++ rest, buf := buf } = some t →
        (t = s ∧ (after Reader.readString_ { input := writeString_ s ++ rest, buf := buf }).input = rest ↔ 0 ∉ s) := by
  refine ⟨readString_inBounds input buf, ?_⟩
  intro t ht
  rcases readString_writeString buf rest hs with ⟨e, g, herr⟩ | ⟨g, hok, hrest⟩
  · unfold result at ht
    rw [herr] at ht
    cases ht
  · rw [result_ok hok] at ht
    cases ht
    rw [after_ok hok, takeWhile_eq_self_iff]
    constructor
    · rintro ⟨hall, -⟩ hmem
      simpa using hall 0 hmem
    · intro hnot
      refine ⟨fun b hb => ?_, hrest⟩
      have : b ≠ 0 := fun h0 => hnot (h0 ▸ hb)
      simpa using this

/-- A short string between two others. -/
theorem short_string_framed :
    (after Reader.readString_ { input := toLE 8 3 ++ [1, 2, 3], buf := fun _ => 7 }).InBounds ∧
      result Reader.readString_ { input := writeString_ [1, 2, 3] ++ [4], buf := fun _ => 7 } = some [1, 2, 3] ∧
      (after Reader.readString_ { input := writeString_ [1, 2, 3] ++ [4], buf := fun _ => 7 }).input = [4] := by
  have h := string_framing (fun _ => 7) (toLE 8 3 ++ [1, 2, 3]) [1, 2, 3] [4] (by decide)
  have hresult : result Reader.readString_ { input := writeString_ [1, 2, 3] ++ [4], buf := fun _ => 7 } =
      some [1, 2, 3] := by decide
  exact ⟨h.1.2 (by decide), hresult, ((h.2 _ hresult).2 (by decide)).2⟩

/-- The peer announces a string of 1024 bytes: the zero byte is written behind the buffer. A string with a zero
byte in the middle comes back as its first part. -/
theorem terminator_behind_buffer :
    ¬ (after Reader.readString_ { input := toLE 8 1024, buf := fun _ => 7 }).InBounds ∧
      result Reader.readString_ { input := writeString_ [1, 0, 2], buf := fun _ => 7 } = some [1] := by
  constructor
  · rw [readString_inBounds]
    decide
  · decide

end VolumeDriver.Dtl
