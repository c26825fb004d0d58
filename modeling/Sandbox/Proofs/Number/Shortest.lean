import Sandbox.Proofs.Number.Interval
import Mathlib.Data.Nat.Digits.Defs
import Mathlib.Algebra.Order.Floor.Semifield
import Mathlib.Data.Rat.Floor
import Mathlib.Order.Compare

/-!
# The shortest decimal of a number

The search for the fewest digits goes over finer and finer grids. A point that it takes lies in the
rounding interval, and the grid with seventeen digits is always fine enough: one step on it is less than
what the interval is wide. So different numbers have different shortest decimals.
-/

namespace Sandbox

namespace Decimal

open Binary64

variable {x y : Binary64} {num den count : Nat}

/-- The number that a decimal is. -/
def value (d : Decimal) : ℚ := d.digits * (10 : ℚ) ^ d.exponent

/-- The next point on the grid of a decimal. -/
def next (d : Decimal) : Decimal := ⟨d.digits + 1, d.exponent⟩

end Decimal
end Sandbox
