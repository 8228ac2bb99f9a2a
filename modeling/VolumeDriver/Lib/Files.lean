/-
Files as lists of values, with the three operations of a file system: a read ends at the end of the
file, a write beyond the end fills the gap, and truncation cuts off or fills up. A large sequence of
values is spread over files of one capacity, some of which may be missing.
-/
import VolumeDriver.Lib.Memory
import Mathlib.Tactic.Common

namespace Lib

open Function List

variable {α : Type} [Inhabited α]

/-- The value at an index; a file reads as the default value beyond its end. -/
def valueAt (f : List α) (i : Nat) : α := f[i]?.getD default

/-- At most `n` values from `off` on, as far as there are any. -/
def pread (f : List α) (off n : Nat) : List α := (f.drop off).take n

/-- Puts `xs` at `off`. -/
def pwrite (f : List α) (off : Nat) (xs : List α) : List α :=
  if xs.isEmpty then f else overwrite (f ++ List.replicate (off - f.length) default) off xs

/-- Cuts off or fills up to the length `n`. -/
def truncate (f : List α) (n : Nat) : List α := f.take n ++ List.replicate (n - f.length) default

/-- The contents of files of capacity `c`, side by side. A missing file reads as an empty one. -/
def spread (c : Nat) (m : Nat → Option (List α)) (i : Nat) : α := valueAt ((m (i / c)).getD []) (i % c)

/-! ## One file -/

section
variable {f : List α} {off n : Nat} {xs : List α}

theorem valueAt_of_length_le {i : Nat} (h : f.length ≤ i) : valueAt f i = default := by
  unfold valueAt
  rw [List.getElem?_eq_none h]
  rfl

theorem length_pwrite (h : xs ≠ []) : (pwrite f off xs).length = max f.length (off + xs.length) := by
  unfold pwrite overwrite
  rw [if_neg (by simpa using h)]
  simp only [length_append, length_take, length_replicate, length_drop]
  omega

@[simp] theorem length_truncate : (truncate f n).length = n := by
  unfold truncate
  rw [length_append, length_take, length_replicate]
  omega

theorem valueAt_append_replicate (k : Nat) : valueAt (f ++ List.replicate k default) = valueAt f := by
  funext i
  unfold valueAt
  rw [List.getElem?_append]
  split
  · rfl
  · next h =>
    rw [List.getElem?_replicate, List.getElem?_eq_none (by omega)]
    split <;> rfl

theorem valueAt_overwrite (h : off ≤ f.length) : valueAt (overwrite f off xs) = store (valueAt f) off xs := by
  funext i
  unfold valueAt overwrite store
  have htake : (f.take off).length = off := by rw [length_take]; omega
  rw [List.getElem?_append, htake]
  split
  · next hlt => rw [if_neg (by omega), List.getElem?_take_of_lt hlt]
  · next hge =>
    rw [if_pos (by omega), List.getElem?_append]
    split
    · next hin => rw [List.getElem?_eq_getElem hin]; rfl
    · next hout =>
      rw [List.getElem?_drop, List.getElem?_eq_none (by omega : xs.length ≤ i - off)]
      rw [show off + xs.length + (i - off - xs.length) = i by omega]
      rfl

theorem valueAt_pwrite : valueAt (pwrite f off xs) = store (valueAt f) off xs := by
  unfold pwrite
  split
  · next h =>
    rw [isEmpty_iff.1 h]
    exact store_nil.symm
  · rw [valueAt_overwrite, valueAt_append_replicate]
    rw [length_append, length_replicate]
    omega

theorem valueAt_truncate (i : Nat) : valueAt (truncate f n) i = if i < n then valueAt f i else default := by
  unfold truncate
  rw [valueAt_append_replicate]
  unfold valueAt
  rw [List.getElem?_take]
  split <;> rfl

/-- What a read yields, filled up to the length that was asked for. -/
theorem pread_fill :
    pread f off n ++ List.replicate (n - (pread f off n).length) default = slice (valueAt f) off n := by
  apply ext_getElem?
  intro i
  unfold pread
  rw [getElem?_slice, List.getElem?_append, length_take, length_drop]
  split
  · next h =>
    rw [if_pos (by omega), List.getElem?_take_of_lt (by omega), List.getElem?_drop]
    unfold valueAt
    rw [List.getElem?_eq_getElem (by omega)]
    rfl
  · next h =>
    rw [List.getElem?_replicate]
    split
    · next hin => rw [if_pos (by omega), valueAt_of_length_le (by omega)]
    · next hout => rw [if_neg (by omega)]

end

/-! ## Files side by side -/

section
variable {c k : Nat} {m : Nat → Option (List α)}

theorem mul_add_div_eq {off : Nat} (hoff : off < c) : (k * c + off) / c = k := by
  rw [Nat.mul_comm, Nat.mul_add_div (by omega), Nat.div_eq_of_lt hoff, Nat.add_zero]

theorem mul_add_mod_eq {off : Nat} (hoff : off < c) : (k * c + off) % c = off := by
  rw [Nat.mul_comm, Nat.mul_add_mod, Nat.mod_eq_of_lt hoff]

theorem spread_update (f : Option (List α)) (i : Nat) :
    spread c (update m k f) i = if i / c = k then valueAt (f.getD []) (i % c) else spread c m i := by
  unfold spread
  by_cases h : i / c = k
  · rw [if_pos h, h, update_self]
  · rw [if_neg h, update_of_ne h]

/-- A write into one of the files is a write into the whole. -/
theorem spread_pwrite (hc : 0 < c) {off : Nat} {xs : List α} (hin : off + xs.length ≤ c) :
    spread c (update m k (some (pwrite ((m k).getD []) off xs))) = store (spread c m) (k * c + off) xs := by
  funext i
  rw [spread_update, Option.getD_some, valueAt_pwrite]
  have hi := Nat.div_add_mod i c
  have hlt := Nat.mod_lt i hc
  rw [Nat.mul_comm] at hi
  split
  · next h =>
    rw [h] at hi
    unfold store spread
    rw [h]
    by_cases hle : off ≤ i % c
    · rw [if_pos hle, if_pos (by omega), show i - (k * c + off) = i % c - off by omega]
    · rw [if_neg hle, if_neg (by omega)]
  · next h =>
    -- another file: outside of the range
    refine (store_of_outside ?_).symm
    rcases Nat.lt_or_gt_of_ne h with hlt' | hgt
    · left
      have := Nat.mul_le_mul_right c (show i / c + 1 ≤ k by omega)
      rw [Nat.add_mul, Nat.one_mul] at this
      omega
    · right
      have := Nat.mul_le_mul_right c (show k + 1 ≤ i / c by omega)
      rw [Nat.add_mul, Nat.one_mul] at this
      omega

theorem slice_spread {off n : Nat} (hin : off + n ≤ c) :
    slice (spread c m) (k * c + off) n = slice (valueAt ((m k).getD [])) off n := by
  refine map_congr_left fun i hi => ?_
  have hi := mem_range.1 hi
  unfold spread
  rw [Nat.add_assoc, mul_add_div_eq (by omega), mul_add_mod_eq (by omega)]

end

end Lib
