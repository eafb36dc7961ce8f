import ProseScore.Scalar

/-!
# Exact numbers

Rational numbers make a score whose times are exact, so that a sum does not hang
on the order of its terms.
-/

namespace ProseScore

/-- Exact rational numbers. -/
instance : Scalar Rat where
  zero := 0
  isFinite _ := true
  ofDecimal mantissa exponent := mantissa * (10 : Rat) ^ exponent
  termBound due period horizon := ((horizon - due) / period).floor.toNat + 1

end ProseScore
