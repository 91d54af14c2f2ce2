import Mathlib.Algebra.Order.Round
import Mathlib.Data.Rat.Floor

/-!
# Saturating `u32` arithmetic

Sums and casts that stop at the largest value instead of wrapping.
-/

namespace Rumble.Lib

/-- `u32::MAX` -/
def u32Max : Nat := 2 ^ 32 - 1

/-- `u32::saturating_add` -/
def saturatingAdd (a b : Nat) : Nat := min (a + b) u32Max

theorem saturatingAdd_min (a b : Nat) : saturatingAdd (min a u32Max) b = min (a + b) u32Max := by
  unfold saturatingAdd
  omega

theorem saturatingAdd_of_le {a b : Nat} (h : a + b ≤ u32Max) : saturatingAdd a b = a + b :=
  Nat.min_eq_left h

/-- A cast of a floating point number without a fraction to `u32`. -/
def saturatingCast (z : Int) : Nat := min z.toNat u32Max

theorem saturatingCast_mono {z z' : Int} (h : z ≤ z') : saturatingCast z ≤ saturatingCast z' := by
  unfold saturatingCast
  omega

/-- The cast of a rounded up number stays at or below a bound that does not saturate exactly when
the number does. -/
theorem saturatingCast_ceil_le {q : Rat} {n : Nat} (hn : n < u32Max) :
    saturatingCast ⌈q⌉ ≤ n ↔ q ≤ n := by
  have hcast : saturatingCast ⌈q⌉ ≤ n ↔ ⌈q⌉ ≤ (n : Int) := by
    unfold saturatingCast
    omega
  rw [hcast, Int.ceil_le, Int.cast_natCast]

end Rumble.Lib
