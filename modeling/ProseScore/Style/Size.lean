import ProseScore.Decimal.Numeral

/-!
# Sizes

Letter sizes are kept in points.  Four pixels make three points.
-/

namespace ProseScore.Size

variable {R : Type} [Scalar R]

/-- The number in front of a unit and the points in one of that unit.  A number
without a unit counts points. -/
def split (s : Text) : Text × R :=
  match Text.withoutEnd? ['p', 'x'] s, Text.withoutEnd? ['p', 't'] s with
  | some number, _ => (number, 0.75)
  | none, some number => (number, 1.0)
  | none, none => (s, 1.0)

/-- Read a size in points.  It is a positive number. -/
def ofText? (s : Text) : Option R :=
  let (number, unit) := split (Text.trim s)
  ((Numeral.ofText? (Text.trim number)).bind Numeral.value?).bind fun x =>
    if 0 < x then some (x * unit) else none

def pixels (points : R) : R :=
  points * 96.0 / 72.0

end ProseScore.Size
