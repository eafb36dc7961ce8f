import ProseScore.Yaml.Place

/-!
# Scalars of a settings file

A scalar stands plain, between single quotes or between double quotes.  White
space inside it that holds line breaks is folded: a single line feed is a space,
and of more than one break the first is dropped if it is a line feed.
-/

namespace ProseScore.Yaml

inductive ScalarStyle where
  | plain
  | quoted
  /-- As indented lines that keep their ends. -/
  | literal
  /-- As indented lines that are folded. -/
  | folded
  deriving DecidableEq, Repr

/-- A scalar.  Its style and tag say whether it can stand for a number or for
nothing. -/
structure Scalar where
  text : Text
  style : ScalarStyle
  tag : Option Text
  deriving DecidableEq, Repr

def Scalar.absent : Scalar :=
  ⟨[], .plain, none⟩

structure Gap where
  /-- What was seen of it before the first line break. -/
  blanks : Text := []
  /-- The first line break, which is empty if it was escaped. -/
  first : Option Text := none
  /-- The line breaks behind the first. -/
  more : Text := []

namespace Gap

/-- The gap with one more character.  Blanks behind a line break do not count. -/
def add (g : Gap) (c : Char) : Gap :=
  match g.first with
  | none => if isBreak c then { g with first := some [c] } else { g with blanks := g.blanks ++ [c] }
  | some _ => if isBreak c then { g with more := g.more ++ [c] } else g

def text (g : Gap) : Text :=
  match g.first with
  | none => g.blanks
  | some first =>
    if first = ['\n'] then if g.more.isEmpty then [' '] else g.more
    else first ++ g.more

def isEmpty (g : Gap) : Bool :=
  g.blanks.isEmpty && g.first.isNone

end Gap

def prepend (s : Text) : Option (Text × List Placed) → Option (Text × List Placed) :=
  Option.map fun (read, behind) => (s ++ read, behind)

/-! ## Quoted scalars -/

/-- The rest of a single-quoted scalar.  A quote in it is written twice. -/
def single (g : Gap) : List Placed → Option (Text × List Placed)
  | [] => none
  | [p] => if p.char = '\'' then some (g.text, []) else none
  | p :: q :: r =>
    if (marker? (p :: q :: r)).isSome then none
    else if p.char = '\'' then
      if q.char = '\'' then prepend (g.text ++ ['\'']) (single {} r) else some (g.text, q :: r)
    else if isGap p.char then single (g.add p.char) (q :: r)
    else prepend (g.text ++ [p.char]) (single {} (q :: r))

def escaped? (c : Char) : Option Char :=
  [('0', '\x00'), ('a', '\x07'), ('b', '\x08'), ('t', '\t'), ('\t', '\t'), ('n', '\n'),
    ('v', '\x0b'), ('f', '\x0c'), ('r', '\r'), ('e', '\x1b'), (' ', ' '), ('"', '"'),
    ('/', '/'), ('\\', '\\'), ('N', '\u0085'), ('_', '\u00a0'), ('L', '\u2028'),
    ('P', '\u2029')].lookup c

def hexLength? (c : Char) : Option Nat :=
  [('x', 2), ('u', 4), ('U', 8)].lookup c

def hexDigit? (c : Char) : Option Nat :=
  if c.isDigit then some (c.toNat - '0'.toNat)
  else if 'a' ≤ c ∧ c ≤ 'f' then some (c.toNat - 'a'.toNat + 10)
  else if 'A' ≤ c ∧ c ≤ 'F' then some (c.toNat - 'A'.toNat + 10)
  else none

def char? (n : Nat) : Option Char :=
  if n.isValidChar then some (Char.ofNat n) else none

inductive Quoting where
  | text
  /-- Behind a backslash. -/
  | escape
  /-- In an escape with so many digits to come and this value so far. -/
  | digits (left value : Nat)

/-- The rest of a double-quoted scalar.  An escaped line break leaves nothing of
itself and of the blanks behind it. -/
def double : Quoting → Gap → List Placed → Option (Text × List Placed)
  | _, _, [] => none
  | .text, g, p :: r =>
    if (marker? (p :: r)).isSome then none
    else if p.char = '"' then some (g.text, r)
    else if p.char = '\\' then prepend g.text (double .escape {} r)
    else if isGap p.char then double .text (g.add p.char) r
    else prepend (g.text ++ [p.char]) (double .text {} r)
  | .escape, g, p :: r =>
    if isBreak p.char then double .text { first := some [] } r
    else
      match escaped? p.char, hexLength? p.char with
      | some image, _ => prepend [image] (double .text {} r)
      | none, some n => double (.digits n 0) g r
      | none, none => none
  | .digits left value, g, p :: r =>
    match hexDigit? p.char with
    | none => none
    | some d =>
      let value := 16 * value + d
      if left ≤ 1 then
        match char? value with
        | none => none
        | some image => prepend [image] (double .text {} r)
      else double (.digits (left - 1) value) g r

/-! ## Plain scalars -/

def isFlowMark (c : Char) : Bool :=
  c = ',' || c = '[' || c = ']' || c = '\x7b' || c = '\x7d'

/-- The rest of a plain scalar.  It ends before a colon with a gap behind it,
before a comment or a marker, between braces before their marks, and elsewhere
before a line that is less deep than `floor`. -/
def bare (flow : Bool) (floor : Nat) (g : Gap) : List Placed → Option (Text × List Placed)
  | [] => some ([], [])
  | p :: r =>
    let shallow := g.first.isSome && p.column < floor
    if isGap p.char then
      if shallow && p.char = '\t' then none else bare flow floor (g.add p.char) r
    else if (shallow && !flow) ||
        (!g.isEmpty && (p.char = '#' || (marker? (p :: r)).isSome)) then
      some ([], p :: r)
    else if flow && p.char = ':' && r.head?.any (fun q => isFlowMark q.char || q.char = '?') then
      none
    else if (p.char = ':' && atGap r) || (flow && isFlowMark p.char) then some ([], p :: r)
    else prepend (g.text ++ [p.char]) (bare flow floor {} r)

def beginsBare (flow : Bool) (c : Char) (r : List Placed) : Bool :=
  if c = '-' then !atGap r
  else if c = '?' || c = ':' then !flow && !atGap r
  else !isGap c && !(",[]\x7b\x7d#&*!|>'\"%@\x60".toList.contains c)

end ProseScore.Yaml
