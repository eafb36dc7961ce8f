import ProseScore.Text.Basic

/-!
# Characters in their places

Indentation and line ends carry meaning in a settings file.  Its readers take
characters that know their line and their column, and return what they have read
and the characters behind it.
-/

namespace ProseScore.Yaml

/-- A character with the number of lines before its own and the number of
characters before it on its line. -/
structure Placed where
  char : Char
  line : Nat
  column : Nat
  deriving DecidableEq, Repr

def isAllowed (c : Char) : Bool :=
  let n := c.toNat
  n == 0x9 || n == 0xa || n == 0xd || (0x20 ≤ n && n ≤ 0x7e) || n == 0x85 ||
    (0xa0 ≤ n && n ≤ 0xfffd) || 0x10000 ≤ n

/-- The characters that end a line, once all line ends of a single kind are line
feeds. -/
def isBreak (c : Char) : Bool :=
  c = '\n' || c = '\u2028' || c = '\u2029'

def isSpace (c : Char) : Bool :=
  c = ' ' || c = '\t'

def isGap (c : Char) : Bool :=
  isSpace c || isBreak c

def atGap : List Placed → Bool
  | [] => true
  | p :: _ => isGap p.char

/-- A file with a line feed for each carriage return, for each pair of the two
and for each next-line character. -/
def withLineFeeds : Text → Text
  | [] => []
  | '\r' :: '\n' :: r => '\n' :: withLineFeeds r
  | c :: r => (if c = '\r' || c = '\u0085' then '\n' else c) :: withLineFeeds r

def placeFrom (line column : Nat) : Text → List Placed
  | [] => []
  | c :: r =>
    ⟨c, line, column⟩ ::
      if isBreak c then placeFrom (line + 1) 0 r else placeFrom line (column + 1) r

def place (file : Text) : List Placed :=
  placeFrom 0 0 (withLineFeeds file)

def isByteOrderMark (p : Placed) : Bool :=
  p.char = '\ufeff' && p.column = 0

/-- The characters behind gaps, comments and the byte order marks of lines, which
take up a column.  Tabs belong to a gap if `tabs` says so, and on the lines behind
the first one if `flow` does. -/
def skipFrom (flow : Bool) : (tabs inComment : Bool) → List Placed → List Placed
  | _, _, [] => []
  | tabs, inComment, p :: r =>
    if isBreak p.char then skipFrom flow flow false r
    else if inComment then skipFrom flow tabs true r
    else if p.char = ' ' || (tabs && p.char = '\t') || isByteOrderMark p then
      skipFrom flow tabs false r
    else if p.char = '#' then skipFrom flow tabs true r
    else p :: r

def skip (flow tabs : Bool) (ps : List Placed) : List Placed :=
  skipFrom flow tabs false ps

theorem length_skipFrom_le (flow tabs inComment : Bool) (ps : List Placed) :
    (skipFrom flow tabs inComment ps).length ≤ ps.length := by
  induction ps generalizing tabs inComment with
  | nil => simp [skipFrom]
  | cons p r ih =>
    unfold skipFrom
    split
    · exact Nat.le_succ_of_le (ih _ _)
    · split
      · exact Nat.le_succ_of_le (ih _ _)
      · split
        · exact Nat.le_succ_of_le (ih _ _)
        · split
          · exact Nat.le_succ_of_le (ih _ _)
          · exact Nat.le_refl _

theorem length_skip_le (flow tabs : Bool) (ps : List Placed) :
    (skip flow tabs ps).length ≤ ps.length :=
  length_skipFrom_le flow tabs false ps

def span (test : Char → Bool) (ps : List Placed) : Text × List Placed :=
  ((ps.takeWhile (test ·.char)).map Placed.char, ps.dropWhile (test ·.char))

def skipBlanks (ps : List Placed) : List Placed :=
  (span isSpace ps).2

/-- The characters of the next line, if nothing but blanks and a comment stands
before it. -/
def nextLine? (ps : List Placed) : Option (List Placed) :=
  match skipBlanks ps with
  | [] => some []
  | p :: r =>
    if isBreak p.char then some r
    else if p.char = '#' then some (span (!isBreak ·) r).2.tail
    else none

/-- What a line says that begins with three equal marks and a gap. -/
inductive Marker where
  /-- A document begins. -/
  | opening
  /-- A document ends. -/
  | closing
  deriving DecidableEq, Repr

def marker? : List Placed → Option Marker
  | a :: b :: c :: r =>
    if a.column = 0 && atGap r then
      if [a, b, c].all (·.char = '-') then some .opening
      else if [a, b, c].all (·.char = '.') then some .closing
      else none
    else none
  | _ => none

def isOver (ps : List Placed) : Bool :=
  match ps with
  | [] => true
  | p :: r =>
    if marker? (p :: r) = some .closing then isOver (skip false true (r.drop 2)) else false
termination_by ps.length
decreasing_by
  have := length_skip_le false true (r.drop 2)
  simp only [List.length_drop, List.length_cons] at *
  omega

end ProseScore.Yaml
