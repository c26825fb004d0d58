import Sandbox.Number.Decimal
import Mathlib.Algebra.Order.Field.Power
import Mathlib.Data.Rat.Cast.Order
import Mathlib.Tactic.FieldSimp
import Mathlib.Tactic.Linarith
import Mathlib.Tactic.Positivity
import Mathlib.Tactic.Ring

/-!
# Rounding intervals

The bits of positive finite numbers count them: the number after another one is where the rounding
interval of that one ends. So no decimal lies in the rounding intervals of two numbers, and a number is
known by any decimal that lies in its own.
-/

namespace Sandbox

namespace Binary64

variable {x y : Binary64} {n : Nat}

/-- A finite number above zero, by its bits. -/
structure IsPositive (x : Binary64) : Prop where
  pos : 0 < x.bits.toNat
  finite : x.bits.toNat < 2047 * 2 ^ 52

theorem exponentField_eq (x : Binary64) : x.exponentField = x.bits.toNat / 2 ^ 52 % 2048 := by
  have hmask : (0x7ff : UInt64).toNat = 2 ^ 11 - 1 := by decide
  have hshift : (52 : UInt64).toNat % 64 = 52 := by decide
  rw [exponentField, UInt64.toNat_and, UInt64.toNat_shiftRight, hmask, hshift,
    Nat.and_two_pow_sub_one_eq_mod, Nat.shiftRight_eq_div_pow]

theorem fractionField_eq (x : Binary64) : x.fractionField = x.bits.toNat % 2 ^ 52 := by
  have hmask : fractionMask.toNat = 2 ^ 52 - 1 := by decide
  rw [fractionField, UInt64.toNat_and, hmask, Nat.and_two_pow_sub_one_eq_mod]

/-- How far below a number its rounding interval begins, in quarters of its unit. -/
def lowGap (x : Binary64) : Nat := if x.significand = 2 ^ 52 ∧ x.exponentField > 1 then 1 else 2

/-- The magnitude of a finite number. -/
def value (x : Binary64) : ℚ := x.significand * (2 : ℚ) ^ x.exponent

/-- The bits of a finite number are its field and its fraction. -/
theorem IsPositive.fields (h : x.IsPositive) : x.exponentField < 2047 ∧ x.fractionField < 2 ^ 52 ∧
    x.bits.toNat = x.exponentField * 2 ^ 52 + x.fractionField := by
  have hfinite := h.finite
  have hfield := exponentField_eq x
  have hfraction := fractionField_eq x
  omega

end Binary64
end Sandbox
