import ProseScore.Session.Basic

/-!
# Keystrokes

In a live region each letter that is typed sounds at once, in the style at the
caret.  The random symbol plays a drawn pitch, and the silence symbol silences
everything.
-/

namespace ProseScore

/-- A place between characters: a paragraph and the number of characters before
the caret. -/
structure Caret where
  paragraph : Nat
  offset : Nat
  deriving DecidableEq, Repr

inductive Keystroke (R : Type) where
  | ignored
  | silenced
  | played (event : NoteEvent R)
  deriving DecidableEq, Repr

/-- The attributes of what is typed at a caret: those of the character before
it, else of the character behind it, else of unstyled text. -/
def Paragraph.attributesAt {R : Type} (base : R) (p : Paragraph R) (offset : Nat) :
    Attributes R :=
  let glyphs := p.glyphs base
  let before := if offset = 0 then none else glyphs[offset - 1]?
  ((before <|> glyphs[offset]?).map Glyph.attributes).getD (.plain base)

namespace Session

variable {R : Type} [Scalar R]

def strike (s : Session R) (a : Attributes R) (key : Char) : Keystroke R × Session R :=
  match Sound.ofChar? s.config false false a key s.liveGenerator with
  | (none, liveGenerator) => (.ignored, { s with liveGenerator })
  | (some sound, liveGenerator) =>
    let event : NoteEvent R := { sound with start := s.recorder.now }
    (.played event, { s with liveGenerator, recorder := s.recorder.record [event] })

def keystroke (s : Session R) (caret : Caret) (key : Char) : Keystroke R × Session R :=
  let symbols := s.config.symbols
  let sounds := isLetter key || key = symbols .random
  if sounds || key = symbols .silence then
    match s.document[caret.paragraph]? with
    | none => (.ignored, s)
    | some p =>
      if !symbols.inLiveRegion p.text caret.offset then (.ignored, s)
      else if key = symbols .silence then
        (.silenced, { s with recorder := s.recorder.silence })
      else s.strike (p.attributesAt s.config.baseSize caret.offset) key
  else (.ignored, s)

end Session

end ProseScore
