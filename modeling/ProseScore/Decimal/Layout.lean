import ProseScore.Decimal.Shortest
import ProseScore.Text.Basic

/-!
# The text of a number

A layout fixes how the shortest decimal of a number is written out: between
which sizes with a bare point, and what stands for the special values.
-/

namespace ProseScore

structure NumberLayout where
  /-- Where a tie between two shortest decimals goes. -/
  tie : Shortest.Tie
  /-- Whether a number whose point stands behind this many of its digits is
  written without a power of ten.  A negative count is one of zeros between the
  point and the digits. -/
  positional : Int → Bool
  /-- What follows the digits of a whole number. -/
  wholeEnd : Text
  undefined : Text
  infinity : Text
  minusInfinity : Text

namespace NumberLayout

def point (layout : NumberLayout) (digits : Text) (exponent : Int) : Text :=
  let places := digits.length + exponent
  if 0 ≤ exponent then digits ++ List.replicate exponent.toNat '0' ++ layout.wholeEnd
  else if 0 < places then digits.take places.toNat ++ '.' :: digits.drop places.toNat
  else '0' :: '.' :: List.replicate (-places).toNat '0' ++ digits

def power (digits : Text) (exponent : Int) : Text :=
  let scale : Int := digits.length + exponent - 1
  let mantissa := match digits with
    | [] => []
    | [d] => [d]
    | d :: ds => d :: '.' :: ds
  mantissa ++ 'e' :: (if scale < 0 then ['-'] else []) ++ Text.ofNat scale.natAbs

def render (layout : NumberLayout) (x : Float) : Text :=
  if x.isNaN then layout.undefined
  else if x.isInf then if x < 0 then layout.minusInfinity else layout.infinity
  else
    let decimal := Shortest.ofFloat layout.tie x
    let digits := Text.ofNat decimal.coefficient
    let sign := if x.toBits.toNat / Nat.pow 2 63 = 1 then ['-'] else []
    sign ++
      if decimal.coefficient = 0 ∨ layout.positional (digits.length + decimal.exponent) then
        layout.point digits decimal.exponent
      else power digits decimal.exponent

/-- Numbers in messages never have a power of ten, and whole numbers have no
point. -/
def message : NumberLayout where
  tie := .up
  positional _ := true
  wholeEnd := []
  undefined := "NaN".toList
  infinity := "inf".toList
  minusInfinity := "-inf".toList

/-- Numbers in listings have a bare point from `0.00001` up to sixteen digits
before the point, and a whole number keeps a zero behind it. -/
def listing : NumberLayout where
  tie := .even
  positional places := -5 < places ∧ places ≤ 16
  wholeEnd := ".0".toList
  undefined := ".nan".toList
  infinity := ".inf".toList
  minusInfinity := "-.inf".toList

example : message.render (-1.5e-7) = "-0.00000015".toList := by decide +kernel

example : message.render 1e21 = "1000000000000000000000".toList := by decide +kernel

example : listing.render 1e-5 = "0.00001".toList := by decide +kernel

example : listing.render 9.5e-6 = "9.5e-6".toList := by decide +kernel

example : listing.render 1e15 = "1000000000000000.0".toList := by decide +kernel

example : listing.render 1e16 = "1e16".toList := by decide +kernel

example : listing.render (0.1 + 0.2) = "0.30000000000000004".toList := by decide +kernel

end NumberLayout

end ProseScore
