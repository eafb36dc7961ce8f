import ProseScore.Scalar

/-!
# Shortest decimals

The fewest decimal digits from which a binary64 number can be read back, and of
those the nearest to it.  All comparisons are between natural numbers.
-/

namespace ProseScore.Shortest

inductive Tie where
  | up
  | even
  deriving DecidableEq, Repr

/-- A positive number and the interval of reals that round to it, as numerators
over one denominator. -/
structure Interval where
  low : Nat
  value : Nat
  high : Nat
  denominator : Nat
  /-- Whether the ends round to the number as well. -/
  closed : Bool

namespace Interval

/-- The interval of the binary64 number `mantissa * 2 ^ exponent`.  The next
number below is nearer than the next above where the mantissa is the least of
its kind, `closer`. -/
def ofBinary (mantissa : Nat) (exponent : Int) (closer : Bool) : Interval :=
  let unit := Nat.pow 2 (exponent - 2).toNat
  { low := (4 * mantissa - if closer then 1 else 2) * unit
    value := 4 * mantissa * unit
    high := (4 * mantissa + 2) * unit
    denominator := Nat.pow 2 (2 - exponent).toNat
    closed := mantissa % 2 = 0 }

def contains (i : Interval) (n : Nat) : Bool :=
  if i.closed then i.low ≤ n && n ≤ i.high else i.low < n && n < i.high

/-- The nearest multiple of `10 ^ e` in the interval, divided by `10 ^ e`. -/
def onGrid? (tie : Tie) (i : Interval) (e : Int) : Option Nat :=
  let finer := Nat.pow 10 (-e).toNat
  let step := i.denominator * Nat.pow 10 e.toNat
  let scaled : Interval :=
    { i with low := i.low * finer, value := i.value * finer, high := i.high * finer }
  let below := scaled.value / step
  let above := below + 1
  match scaled.contains (below * step), scaled.contains (above * step) with
  | false, false => none
  | true, false => some below
  | false, true => some above
  | true, true =>
    let middle := (below + above) * step
    if 2 * scaled.value < middle then some below
    else if middle < 2 * scaled.value then some above
    else match tie with
      | .up => some above
      | .even => some (if below % 2 = 0 then below else above)

end Interval

structure Decimal where
  coefficient : Nat
  exponent : Int
  deriving DecidableEq, Repr

def search (tie : Tie) (i : Interval) : Nat → Int → Decimal
  | 0, _ => ⟨0, 0⟩
  | fuel + 1, e =>
    match i.onGrid? tie e with
    | some c => ⟨c, e⟩
    | none => search tie i fuel (e - 1)

/-- The shortest decimal of a number, given by its interval.  The search starts
on a grid coarser than the number and ends at the latest on the grid
`10 ^ (-330)`, which is finer than every interval. -/
def ofInterval (tie : Tie) (i : Interval) : Decimal :=
  let top := digitCount (i.value / i.denominator)
  search tie i (top + 331) top

def ofFloat (tie : Tie) (x : Float) : Decimal :=
  let bits := x.toBits.toNat
  let fraction := bits % Nat.pow 2 52
  let scale : Nat := bits / Nat.pow 2 52 % Nat.pow 2 11
  if fraction = 0 ∧ scale = 0 then ⟨0, 0⟩
  else if scale = 0 then ofInterval tie (.ofBinary fraction (-1074) false)
  else
    ofInterval tie (.ofBinary (Nat.pow 2 52 + fraction) ((scale : Int) - 1075)
      (fraction = 0 ∧ 1 < scale))

end ProseScore.Shortest
