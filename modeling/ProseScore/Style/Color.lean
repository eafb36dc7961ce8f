import ProseScore.Text.Lowercase

/-!
# Colors

A score tells four colors apart.  A color is described in words, as a triple of
components or in hexadecimal form.
-/

namespace ProseScore

inductive Color where
  | black
  | blue
  | green
  | red
  deriving DecidableEq, Repr

namespace Color

/-- The spellings of one color: stretches that tell it wherever they stand in a
description, and spellings that have to be the whole of it. -/
structure Spelling where
  color : Color
  stretches : List Text
  wholes : List Text

def Spelling.matches (spelling : Spelling) (description : Text) : Bool :=
  spelling.stretches.any (Text.occurs · description) || spelling.wholes.contains description

def spellings : List Spelling :=
  [⟨blue, ["0,0,255".toList, "blue".toList], ["#0000ff".toList, "#00f".toList]⟩,
   ⟨green, ["0,128,0".toList, "green".toList], ["#008000".toList]⟩,
   ⟨red, ["255,0,0".toList, "red".toList], ["#ff0000".toList, "#f00".toList]⟩]

/-- The color of a description, black unless it spells another.  White space and
letter case do not matter. -/
def ofText (description : Text) : Color :=
  let bare := Text.lowercase (description.filter (!isBlank ·))
  ((spellings.find? (·.matches bare)).map Spelling.color).getD black

end Color

end ProseScore
