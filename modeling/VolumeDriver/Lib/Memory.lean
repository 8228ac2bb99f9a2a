/-
A memory is a function from addresses to values. A run of consecutive values is read as a list
(`slice`) and written from a list (`store`); `overwrite` does to a list what `store` does to the
memory behind it, and `chunks` cuts a list into pieces of one size.
-/
import Mathlib.Data.List.Basic
import Mathlib.Logic.Function.Basic

namespace Lib

open Function List

variable {α : Type}

/-- The `len` values from `off` on. -/
def slice (f : Nat → α) (off len : Nat) : List α := (List.range len).map fun i => f (off + i)

/-- The memory with the values of a list from `off` on. -/
def store (f : Nat → α) (off : Nat) (xs : List α) : Nat → α :=
  fun x => if off ≤ x then xs[x - off]?.getD (f x) else f x

/-- A list with `ys` in the place of its elements from `k` on. -/
def overwrite (xs : List α) (k : Nat) (ys : List α) : List α := xs.take k ++ (ys ++ xs.drop (k + ys.length))

/-- The first `n` pieces of length `c`. -/
def chunks (c n : Nat) (xs : List α) : List (List α) := (List.range n).map fun i => (xs.drop (i * c)).take c

section
variable {f g : Nat → α} {off len : Nat}

@[simp] theorem length_slice : (slice f off len).length = len := by simp [slice]

theorem getElem?_slice (i : Nat) : (slice f off len)[i]? = if i < len then some (f (off + i)) else none := by
  unfold slice
  rw [List.getElem?_map]
  split
  · next h => rw [List.getElem?_range h]; rfl
  · next h => rw [List.getElem?_eq_none (by simpa using h)]; rfl

theorem slice_congr (h : ∀ i < len, f (off + i) = g (off + i)) : slice f off len = slice g off len :=
  map_congr_left fun i hi => h i (mem_range.mp hi)

theorem take_drop_slice {k m : Nat} (h : k + m ≤ len) : ((slice f off len).drop k).take m = slice f (off + k) m := by
  apply ext_getElem?
  intro i
  rw [List.getElem?_take, List.getElem?_drop, getElem?_slice, getElem?_slice]
  by_cases hi : i < m
  · rw [if_pos hi, if_pos hi, if_pos (by omega), Nat.add_assoc]
  · rw [if_neg hi, if_neg hi]

theorem slice_add (m : Nat) : slice f off (len + m) = slice f off len ++ slice f (off + len) m := by
  unfold slice
  rw [range_add, map_append, map_map]
  refine congrArg _ (map_congr_left fun i _ => ?_)
  show f (off + (len + i)) = f (off + len + i)
  rw [Nat.add_assoc]

end

/-! ## Storing -/

section
variable {f : Nat → α} {off x : Nat} {xs : List α}

@[simp] theorem store_nil : store f off [] = f := by
  funext x
  unfold store
  split <;> rfl

theorem store_of_lt {i : Nat} (h : i < xs.length) : store f off xs (off + i) = xs[i] := by
  unfold store
  rw [if_pos (Nat.le_add_right _ _), Nat.add_sub_cancel_left, List.getElem?_eq_getElem h]
  rfl

/-- What is not in the range stays. -/
theorem store_of_outside (h : x < off ∨ off + xs.length ≤ x) : store f off xs x = f x := by
  unfold store
  split
  · rw [List.getElem?_eq_none (by omega)]
    rfl
  · rfl

theorem store_cases (f : Nat → α) (off : Nat) (xs : List α) (x : Nat) :
    (∃ i, ∃ h : i < xs.length, x = off + i ∧ store f off xs x = xs[i]) ∨
      (x < off ∨ off + xs.length ≤ x) ∧ store f off xs x = f x := by
  by_cases h : x < off ∨ off + xs.length ≤ x
  · exact .inr ⟨h, store_of_outside h⟩
  · have hx : x = off + (x - off) := by omega
    refine .inl ⟨x - off, by omega, hx, ?_⟩
    conv_lhs => rw [hx]
    exact store_of_lt (by omega)

theorem store_cons (a : α) : store f off (a :: xs) = store (update f off a) (off + 1) xs := by
  funext x
  rcases Nat.lt_trichotomy x off with h | rfl | h
  · rw [store_of_outside (.inl h), store_of_outside (.inl (by omega)), update_of_ne (by omega)]
  · have hhead : store f x (a :: xs) (x + 0) = a := store_of_lt (by simp)
    rw [store_of_outside (f := update f x a) (.inl (Nat.lt_succ_self x)), update_self]
    exact hhead
  · rcases store_cases (update f off a) (off + 1) xs x with ⟨i, hi, hx, heq⟩ | ⟨hout, heq⟩
    · rw [heq, hx, Nat.add_assoc, Nat.add_comm 1 i]
      exact store_of_lt (by simpa using hi)
    · rw [heq, update_of_ne (by omega)]
      exact store_of_outside (.inr (by rw [length_cons]; omega))

theorem store_append (ys : List α) : store f off (xs ++ ys) = store (store f off xs) (off + xs.length) ys := by
  induction xs generalizing f off with
  | nil => simp
  | cons a xs ih =>
    rw [cons_append, store_cons, store_cons, ih, length_cons, Nat.add_assoc, Nat.add_comm 1]

theorem store_take_drop {n : Nat} (h : n ≤ xs.length) :
    store (store f off (xs.take n)) (off + n) (xs.drop n) = store f off xs := by
  have happ : store f off (xs.take n ++ xs.drop n) = store _ (off + (xs.take n).length) (xs.drop n) :=
    store_append _
  rw [take_append_drop, length_take, Nat.min_eq_left h] at happ
  exact happ.symm

theorem slice_store_of_outside {a n : Nat} (h : a + n ≤ off ∨ off + xs.length ≤ a) :
    slice (store f off xs) a n = slice f a n :=
  slice_congr fun i hi => store_of_outside (by omega)

/-- What was stored is read back. -/
theorem slice_store_self : slice (store f off xs) off xs.length = xs := by
  apply ext_getElem?
  intro i
  rw [getElem?_slice]
  by_cases hi : i < xs.length
  · rw [if_pos hi, store_of_lt hi, List.getElem?_eq_getElem hi]
  · rw [if_neg hi, List.getElem?_eq_none (by omega)]

theorem overwrite_slice {a k n : Nat} (h : k + xs.length ≤ n) :
    overwrite (slice f a n) k xs = slice (store f (a + k) xs) a n := by
  obtain ⟨m, rfl⟩ : ∃ m, n = k + (xs.length + m) := ⟨n - k - xs.length, by omega⟩
  have hfront : (slice f a (k + (xs.length + m))).take k = slice (store f (a + k) xs) a k := by
    rw [slice_add, take_left' length_slice, slice_store_of_outside (.inl (Nat.le_refl _))]
  have hback : (slice f a (k + (xs.length + m))).drop (k + xs.length) =
      slice (store f (a + k) xs) (a + k + xs.length) m := by
    rw [← Nat.add_assoc, slice_add, drop_left' length_slice, slice_store_of_outside (.inr (by omega)), Nat.add_assoc]
  have hparts : slice (store f (a + k) xs) a (k + (xs.length + m)) = slice (store f (a + k) xs) a k ++
      (slice (store f (a + k) xs) (a + k) xs.length ++ slice (store f (a + k) xs) (a + k + xs.length) m) := by
    rw [slice_add, slice_add]
  rw [hparts, slice_store_self, ← hfront, ← hback]
  rfl

end

/-! ## Pieces -/

section
variable {f : Nat → α} {c : Nat}

@[simp] theorem length_chunks {n : Nat} {xs : List α} : (chunks c n xs).length = n := by simp [chunks]

/-- The pieces of a slice that starts at a multiple of their length. -/
theorem chunks_slice (a n : Nat) : chunks c n (slice f (a * c) (n * c)) = slice (fun b => slice f (b * c) c) a n := by
  refine map_congr_left fun i hi => ?_
  have hle := Nat.mul_le_mul_right c (show i + 1 ≤ n from mem_range.mp hi)
  rw [Nat.add_mul, Nat.one_mul] at hle
  rw [take_drop_slice hle, ← Nat.add_mul]

theorem flatten_slices (a : Nat) : ∀ n : Nat, (slice (fun b => slice f (b * c) c) a n).flatten = slice f (a * c) (n * c)
  | 0 => by simp [slice]
  | n + 1 => by
    rw [slice_add, flatten_append, flatten_slices a n, Nat.add_mul, Nat.one_mul, slice_add, ← Nat.add_mul]
    simp [slice]

end

end Lib
