import ProseScore.Scalar
import ProseScore.Text.Basic

/-!
# Decimal numerals

How a number is written by hand: an optional sign, digits with at most one
point, and an optional power of ten.
-/

namespace ProseScore

/-- A numeral stands for `mantissa * 10 ^ exponent`, or its negative. -/
structure Numeral where
  negative : Bool
  mantissa : Nat
  exponent : Int
  deriving DecidableEq, Repr

namespace Numeral

def ofDigits (ds : Text) : Nat :=
  ds.foldl (fun n d => 10 * n + (d.toNat - '0'.toNat)) 0

/-- The power of ten at the end of a numeral: nothing, or a mark, an optional
sign and at least one digit. -/
def exponent? : Text → Option Int
  | [] => some 0
  | mark :: r =>
    let (negative, ds) := match r with
      | '-' :: r => (true, r)
      | '+' :: r => (false, r)
      | r => (false, r)
    if mark.toLower = 'e' ∧ ds ≠ [] ∧ ds.all Char.isDigit then
      some (if negative then -ofDigits ds else ofDigits ds)
    else none

def unsigned? (negative : Bool) (s : Text) : Option Numeral :=
  let whole := s.takeWhile Char.isDigit
  let (fraction, r) := match s.dropWhile Char.isDigit with
    | '.' :: r => (r.takeWhile Char.isDigit, r.dropWhile Char.isDigit)
    | r => ([], r)
  if whole.isEmpty && fraction.isEmpty then none
  else (exponent? r).map fun e =>
    ⟨negative, ofDigits (whole ++ fraction), e - fraction.length⟩

def ofText? : Text → Option Numeral
  | '-' :: r => unsigned? true r
  | '+' :: r => unsigned? false r
  | r => unsigned? false r

def value? {R : Type} [Scalar R] (n : Numeral) : Option R :=
  let x : R := Scalar.ofDecimal n.mantissa n.exponent
  if Scalar.isFinite x then some (if n.negative then -x else x) else none

end Numeral

example : Numeral.ofText? ['-', '1', '.', '5', 'e', '-', '7'] = some ⟨true, 15, -8⟩ := rfl

example : Numeral.ofText? ['.'] = none := rfl

end ProseScore
