import Mathlib.Data.Int.Log
import Mathlib.Data.Rat.Floor

/-!
# Rounding

The double a number is rounded to: the nearest, and of two as near the one whose last bit is even. A number that
is too large for a double stays as large as it is.
-/

namespace Js

/-- The nearest integer, an even one between two as near. -/
def roundHalfEven (q : ℚ) : ℤ :=
  if q - ⌊q⌋ < 1 / 2 then ⌊q⌋
  else if 1 / 2 < q - ⌊q⌋ then ⌊q⌋ + 1
  else if ⌊q⌋ % 2 = 0 then ⌊q⌋
  else ⌊q⌋ + 1

/-- The exponent of the last bit a positive double of this size holds. -/
def lastBit (q : ℚ) : ℤ := max (Int.log 2 q - 52) (-1074)

/-- The double nearest to a number that is not negative, where it is not too large for one. -/
def toDouble (q : ℚ) : ℚ := roundHalfEven (q / 2 ^ lastBit q) * 2 ^ lastBit q

/-- The double nearest to a number of either sign. -/
def nearestDouble (q : ℚ) : ℚ := if q < 0 then -toDouble (-q) else toDouble q

/-- Whether a number is a double. -/
def IsDouble (q : ℚ) : Prop := nearestDouble q = q

instance (q : ℚ) : Decidable (IsDouble q) := inferInstanceAs (Decidable (nearestDouble q = q))

end Js
