import ProseScore.Token.Cell

/-!
# Tokens

A token is what is played at one time: a letter, a chord of letters, or nothing
for a rest.
-/

namespace ProseScore

/-- A letter that sounds, and its ordinal among the letters of its paragraph. -/
structure Letter (R : Type) where
  char : Char
  attributes : Attributes R
  index : Nat
  deriving BEq, DecidableEq, Repr

inductive TokenKind (R : Type) where
  | letter (letter : Letter R)
  /-- Letters together, in the attributes of the chord. -/
  | chord (letters : List (Letter R)) (attributes : Attributes R)
  | rest
  deriving BEq, DecidableEq, Repr

/-- One step of a score: what it plays, how, and how long it takes. -/
structure Token (R : Type) where
  kind : TokenKind R
  accent : Bool
  random : Bool
  duration : R
  deriving BEq, DecidableEq, Repr

namespace Token

variable {R : Type}

def letters (t : Token R) : List (Letter R) :=
  match t.kind with
  | .letter l => [l]
  | .chord ls _ => ls
  | .rest => []

def attributes? (t : Token R) : Option (Attributes R) :=
  match t.kind with
  | .letter l => some l.attributes
  | .chord _ a => some a
  | .rest => none

/-- The duration of tokens that follow each other, added up from the first. -/
def total [Scalar R] (ts : List (Token R)) : R :=
  ts.foldl (fun sum t => sum + t.duration) 0

end Token

end ProseScore
