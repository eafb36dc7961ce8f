import ProseScore.Text.Basic

/-!
# Pitches

The pitches are the naturals of three octaves.
-/

namespace ProseScore

/-- A pitch, by its place among the naturals from `C3` to `B5`. -/
abbrev Pitch :=
  Fin 21

namespace Pitch

def name (p : Pitch) : Text :=
  ("CDEFGAB".toList.drop (p.val % 7)).take 1 ++ Text.ofNat (3 + p.val / 7)

/-- The pitch of a letter, whatever its case.  The letters behind the
twenty-first start over. -/
def ofLetter? (c : Char) : Option Pitch :=
  if isLetter c then some (Fin.ofNat 21 (c.toLower.toNat - 'a'.toNat)) else none

end Pitch

example : (Pitch.ofLetter? 'H').map Pitch.name = some ['C', '4'] := by decide

example : (Pitch.ofLetter? 'z').map Pitch.name = some ['G', '3'] := by decide

end ProseScore
