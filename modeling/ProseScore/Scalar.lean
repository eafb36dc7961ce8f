/-!
# The numbers of a score

Sizes, times, durations and velocities are numbers of one type `R`.  Every
definition about them asks only for the operations of `Scalar`, so the same
program runs on binary64 numbers, which is how it plays, and on exact rational
numbers, where its time can be reasoned about without rounding.
-/

namespace ProseScore

/-- The operations a score needs of its numbers. -/
class Scalar (R : Type) extends
    Zero R, Neg R, Add R, Sub R, Mul R, Div R, LE R, LT R, OfScientific R where
  /-- The order can be tested. -/
  [decLE : DecidableLE R]
  /-- The strict order can be tested. -/
  [decLT : DecidableLT R]
  /-- Whether a number is neither an infinity nor undefined. -/
  isFinite : R → Bool
  /-- The number nearest to `mantissa * 10 ^ exponent`. -/
  ofDecimal (mantissa : Nat) (exponent : Int) : R
  /-- A bound on how many of `due, due + period, due + 2 * period, …` lie at or
  before `horizon`, as long as each of them is greater than the one before. -/
  termBound (due period horizon : R) : Nat

instance Scalar.decidableLE {R : Type} [Scalar R] : DecidableLE R := Scalar.decLE

instance Scalar.decidableLT {R : Type} [Scalar R] : DecidableLT R := Scalar.decLT

/-- The number of decimal digits of a natural number, one for zero. -/
def digitCount (n : Nat) : Nat :=
  (Nat.toDigits 10 n).length

/-- The binary64 number nearest to `mantissa * 10 ^ exponent`.  A value of more
than 400 places before the point is an infinity and one with more than 400
zeros behind it is zero, whatever its digits. -/
def nearestBinary64 (mantissa : Nat) (exponent : Int) : Float :=
  let magnitude := digitCount mantissa + exponent
  if mantissa = 0 ∨ magnitude < -400 then 0
  else if 400 < magnitude then 1 / 0
  else Float.ofScientific mantissa (exponent < 0) exponent.natAbs

/-- Binary64 numbers.  There are fewer than `2 ^ 64` of them, which bounds every
strictly increasing progression. -/
instance : Scalar Float where
  isFinite := Float.isFinite
  ofDecimal := nearestBinary64
  termBound _ _ _ := Nat.pow 2 64

end ProseScore
