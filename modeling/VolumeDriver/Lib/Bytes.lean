/-
Fixed-width little-endian integers as byte strings, and the two's complement reading of an
unsigned 64-bit number.
-/
import Mathlib.Algebra.Group.Nat.Defs
import Mathlib.Algebra.Group.Int.Defs
import Mathlib.Data.List.Basic

namespace Lib

/-- A byte string. -/
abbrev Bytes := List UInt8

/-- The number a byte string stands for, least significant byte first. -/
def ofLE : Bytes → Nat
  | [] => 0
  | b :: bs => b.toNat + 256 * ofLE bs

/-- The lowest `k` bytes of a number, least significant byte first. -/
def toLE : Nat → Nat → Bytes
  | 0, _ => []
  | k + 1, v => UInt8.ofNat v :: toLE k (v / 256)

@[simp] theorem length_toLE : ∀ (k v : Nat), (toLE k v).length = k
  | 0, _ => rfl
  | k + 1, v => by rw [toLE, List.length_cons, length_toLE k]

theorem ofLE_toLE : ∀ (k v : Nat), ofLE (toLE k v) = v % 256 ^ k
  | 0, v => by rw [toLE, ofLE, Nat.pow_zero, Nat.mod_one]
  | k + 1, v => by
    rw [toLE, ofLE, ofLE_toLE k, Nat.pow_succ, Nat.mul_comm _ 256, Nat.mod_mul]
    rfl

theorem ofLE_toLE_of_lt {k v : Nat} (h : v < 256 ^ k) : ofLE (toLE k v) = v := by
  rw [ofLE_toLE, Nat.mod_eq_of_lt h]

/-- A 64-bit pattern read as a signed number. -/
def int64 (n : Nat) : Int := if n < 2 ^ 63 then n else (n : Int) - 2 ^ 64

/-- The 64-bit pattern of a signed number. -/
def uint64 (i : Int) : Nat := (i % 2 ^ 64).toNat

theorem uint64_int64 {n : Nat} (h : n < 2 ^ 64) : uint64 (int64 n) = n := by
  unfold uint64 int64
  split <;> omega

end Lib
