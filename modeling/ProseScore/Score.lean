import ProseScore.Markup.Reading
import ProseScore.Region.Basic
import ProseScore.Token.Reading

/-!
# Scores

The score of a paragraph has a body, which is played once, and loops, which are
repeated.  Each loop is the inside of a region, and the body is all that stands
outside the insides.
-/

namespace ProseScore

/-- What a paragraph plays. -/
structure Score (R : Type) where
  body : List (Token R)
  /-- The loops in textual order, empty ones included. -/
  loops : List (RegionKey × List (Token R))

namespace Score

variable {R : Type}

def ofCells (config : Config R) (cs : List (Cell R)) : Score R :=
  let regions := Region.ofCells config.symbols cs
  { body := Token.ofCells config (regions.map Region.interior) cs
    loops := regions.map fun r => (r.key, Token.ofCells config [] (r.interior.cells cs)) }

def ofParagraph (config : Config R) (p : Paragraph R) : Score R :=
  ofCells config (Cell.ofParagraph config.baseSize p)

/-- The score of the markup of one paragraph, whether it asks to be played or
not. -/
def ofMarkup [Scalar R] (config : Config R) (s : Text) : Except (Nat × MarkupFault) (Score R) :=
  (Paragraph.ofMarkup s).map (ofParagraph config)

def keys (s : Score R) : List RegionKey :=
  s.loops.map Prod.fst

/-- The tokens of the loop with a key, none if there is no such loop. -/
def loop (s : Score R) (key : RegionKey) : List (Token R) :=
  (s.loops.lookup key).getD []

end Score

end ProseScore
