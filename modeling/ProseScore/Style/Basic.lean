import ProseScore.Scalar
import ProseScore.Style.Color

/-!
# Styles

A style is what a span of text declares about itself.  The attributes are what a
character ends up with after all spans around it have had their say.
-/

namespace ProseScore

/-- The attributes of a character.  The size is in points. -/
structure Attributes (R : Type) where
  bold : Bool
  italic : Bool
  underline : Bool
  color : Color
  size : R
  deriving BEq, DecidableEq, Repr

structure Style (R : Type) where
  bold : Bool := false
  italic : Bool := false
  underline : Bool := false
  color : Option Color := none
  size : Option R := none
  deriving BEq, DecidableEq, Repr

namespace Attributes

variable {R : Type}

def plain (size : R) : Attributes R :=
  ⟨false, false, false, .black, size⟩

/-- The attributes inside a span of style `s`.  What is bold, italic or
underlined stays so; a color or size that is declared replaces the one
around it. -/
def within (a : Attributes R) (s : Style R) : Attributes R where
  bold := a.bold || s.bold
  italic := a.italic || s.italic
  underline := a.underline || s.underline
  color := s.color.getD a.color
  size := s.size.getD a.size

end Attributes

end ProseScore
