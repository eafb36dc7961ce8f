import ProseScore.Text.Case

/-!
# Lower case

The full lower-case form of a text.  Every character maps for itself, except
that the capital sigma looks at its surroundings: at the end of a word it
becomes the final form.
-/

namespace ProseScore

/-- The lower-case form of a single character.  Only the capital I with a dot
has two characters: a plain one and the dot above. -/
def lowerChar (c : Char) : Text :=
  if c.toNat < 0x80 then [c.toLower]
  else if c = 'İ' then ['i', '\u0307']
  else [((Case.lower? c.toNat).map Char.ofNat).getD c]

namespace Text

def reachesCased (s : Text) : Bool :=
  (s.find? (!Case.isIgnorable ·)).any Case.isCased

/-- The lower-case form of a text that follows `before`, which is held in
reverse. -/
def lowercaseAfter (before : Text) : Text → Text
  | [] => []
  | c :: r =>
    let image :=
      if c = 'Σ' then
        if reachesCased before && !reachesCased r then ['ς'] else ['σ']
      else lowerChar c
    image ++ lowercaseAfter (c :: before) r

def lowercase (s : Text) : Text :=
  lowercaseAfter [] s

end Text

example : Text.lowercase ['Α', 'Σ'] = ['α', 'ς'] := by decide +kernel

end ProseScore
