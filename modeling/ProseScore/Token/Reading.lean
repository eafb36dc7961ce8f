import ProseScore.Token.Mark

/-!
# Reading tokens

The letters between two gaps make a word, and a word with letters makes a token.
Every list of cells can be read; if nothing in it sounds or rests, it has no
tokens.
-/

namespace ProseScore

structure Word (R : Type) where
  letters : List (Letter R) := []
  accent : Bool := false
  random : Bool := false

variable {R : Type}

/-- What the letters of a word play: a letter alone plays as it is, and several
play as a chord in the attributes of the first. -/
def Word.kind? (w : Word R) : Option (TokenKind R) :=
  match w.letters with
  | [] => none
  | [l] => some (.letter l)
  | l :: ls => some (.chord (l :: ls) l.attributes)

def Word.token? (config : Config R) (w : Word R) : Option (Token R) :=
  w.kind?.map (⟨·, w.accent, w.random, config.baseDuration⟩)

namespace Token

def silent (config : Config R) : Token R :=
  ⟨.rest, false, false, config.restDuration⟩

/-- The word at the front of the marks and the tokens behind it. -/
def read (config : Config R) : List (Mark R) → Word R × List (Token R)
  | [] => ({}, [])
  | m :: ms =>
    let (word, tokens) := read config ms
    match m with
    | .letter l => ({ word with letters := l :: word.letters }, tokens)
    | .accent => ({ word with accent := true }, tokens)
    | .random => ({ word with random := true }, tokens)
    | .gap => ({}, (word.token? config).toList ++ tokens)
    | .rest => ({}, silent config :: ((word.token? config).toList ++ tokens))

def ofMarks (config : Config R) (ms : List (Mark R)) : List (Token R) :=
  (read config (.gap :: ms)).2

theorem read_append_gap (config : Config R) (xs ys : List (Mark R)) :
    read config (xs ++ .gap :: ys) =
      ((read config xs).1, (read config xs).2 ++ ofMarks config ys) := by
  induction xs with
  | nil => simp [read, ofMarks]
  | cons m xs ih => cases m <;> simp [read, ih]

/-- A gap parts the tokens before it from those behind it. -/
theorem ofMarks_append_gap (config : Config R) (xs ys : List (Mark R)) :
    ofMarks config (xs ++ .gap :: ys) = ofMarks config xs ++ ofMarks config ys := by
  simp only [ofMarks, ← List.cons_append, read_append_gap config (.gap :: xs)]

/-- A rest parts them, too, and is a token itself. -/
theorem ofMarks_append_rest (config : Config R) (xs ys : List (Mark R)) :
    ofMarks config (xs ++ .rest :: ys) =
      ofMarks config xs ++ silent config :: ofMarks config ys := by
  have h (xs : List (Mark R)) : read config (xs ++ .rest :: ys) =
      ((read config xs).1, (read config xs).2 ++ silent config :: ofMarks config ys) := by
    induction xs with
    | nil => simp [read, ofMarks]
    | cons m xs ih => cases m <;> simp [read, ih]
  simp only [ofMarks, ← List.cons_append, h]

def ofCells (config : Config R) (excluded : List Extent) (cs : List (Cell R)) :
    List (Token R) :=
  ofMarks config (Mark.ofCells config.symbols false (Extent.cut excluded 0 cs))

def ofText (config : Config R) (s : Text) : List (Token R) :=
  ofCells config [] (Cell.ofParagraph config.baseSize (.plain s))

end Token

end ProseScore
