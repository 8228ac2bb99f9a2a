/-
A range of numbers cut into blocks of one size, the last of which may be filled only in part.
-/
import Mathlib.Data.Nat.Basic

namespace Lib

/-- The number of blocks of size `c` that hold `x` units. -/
def blocks (c x : Nat) : Nat := x / c + if x % c = 0 then 0 else 1

variable {c x i : Nat}

/-- A block is used exactly if it starts before the end. -/
theorem lt_blocks_iff (hc : 0 < c) : i < blocks c x ↔ i * c < x := by
  have hx := Nat.div_add_mod' x c
  have hr := Nat.mod_lt x hc
  unfold blocks
  constructor
  · intro h
    by_cases h0 : x % c = 0
    · rw [if_pos h0] at h
      have := Nat.mul_le_mul_right c (show i + 1 ≤ x / c from h)
      rw [Nat.add_mul] at this
      omega
    · rw [if_neg h0] at h
      have := Nat.mul_le_mul_right c (show i ≤ x / c by omega)
      omega
  · intro h
    by_contra hn
    by_cases h0 : x % c = 0
    · have := Nat.mul_le_mul_right c (show x / c ≤ i by omega)
      omega
    · rw [if_neg h0] at hn
      have := Nat.mul_le_mul_right c (show x / c + 1 ≤ i by omega)
      rw [Nat.add_mul] at this
      omega

theorem le_blocks_mul (hc : 0 < c) : x ≤ blocks c x * c := by
  by_contra h
  exact Nat.lt_irrefl _ ((lt_blocks_iff hc).mpr (by omega : blocks c x * c < x))

theorem blocks_mul_lt (hc : 0 < c) : blocks c x * c < x + c := by
  rcases Nat.eq_zero_or_pos (blocks c x) with h | h
  · rw [h]; omega
  · have := (lt_blocks_iff hc).mp (show blocks c x - 1 < blocks c x by omega)
    rw [Nat.sub_mul] at this
    omega

/-- A whole number of blocks is held by that number of blocks. -/
theorem blocks_mul_self (hc : 0 < c) (k : Nat) : blocks c (k * c) = k := by
  unfold blocks
  rw [Nat.mul_mod_left, if_pos rfl, Nat.mul_div_cancel _ hc]
  omega

end Lib
