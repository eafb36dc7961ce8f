import ProseScore.Markup.Tag

/-!
# Pieces of markup

Markup is a row of characters and tags.  A piece knows the column in which its
tag begins; columns count characters from one.  Where a tag or an entity cannot
be read, the piece says why.
-/

namespace ProseScore

inductive Piece (R : Type) where
  | char (c : Char)
  | opening (column : Nat) (tag : Tag R)
  | closing (column : Nat) (name : Text)
  | broken (column : Nat) (fault : MarkupFault)
  deriving DecidableEq, Repr

namespace Piece

def entity? (name : Text) : Option Char :=
  [("lt".toList, '<'), ("gt".toList, '>'), ("amp".toList, '&'), ("quot".toList, '"')].lookup name

def ofEntity {R : Type} (column : Nat) (name : Text) : Piece R :=
  match entity? name with
  | some c => .char c
  | none => .broken column (.unknownEntity name)

variable {R : Type} [Scalar R]

/-- The piece of what stands between angle brackets.  A closing tag begins with
a slash, and blanks and letter case do not matter in it. -/
def ofTag (column : Nat) : Text → Piece R
  | '/' :: name => .closing column (Text.lowercase (Text.trim name))
  | body =>
    match Tag.ofText body with
    | .ok tag => .opening column tag
    | .error fault => .broken column fault

inductive Place where
  | text
  /-- In a tag that began in a column, behind these characters in reverse. -/
  | tag (start : Nat) (behind : Text)
  /-- In an entity, likewise. -/
  | entity (start : Nat) (behind : Text)

/-- The pieces of markup that goes on in a column. -/
def read : Place → (column : Nat) → Text → List (Piece R)
  | .text, _, [] => []
  | .tag start _, _, [] => [.broken start (.unfinished '>')]
  | .entity start _, _, [] => [.broken start (.unfinished ';')]
  | .text, column, c :: r =>
    if c = '<' then read (.tag column []) (column + 1) r
    else if c = '&' then read (.entity column []) (column + 1) r
    else .char c :: read .text (column + 1) r
  | .tag start behind, column, c :: r =>
    if c = '>' then ofTag start behind.reverse :: read .text (column + 1) r
    else read (.tag start (c :: behind)) (column + 1) r
  | .entity start behind, column, c :: r =>
    if c = ';' then ofEntity start behind.reverse :: read .text (column + 1) r
    else read (.entity start (c :: behind)) (column + 1) r

theorem read_char {c : Char} (hlt : c ≠ '<') (hamp : c ≠ '&') (column : Nat) (rest : Text) :
    (read .text column (c :: rest) : List (Piece R)) = .char c :: read .text (column + 1) rest := by
  rw [read, if_neg hlt, if_neg hamp]

def ofText (s : Text) : List (Piece R) :=
  read .text 1 s

end Piece

end ProseScore
