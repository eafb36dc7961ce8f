/-!
# Text

A text is the list of its characters, so a position in it counts characters
whatever their encoded width.
-/

namespace ProseScore

abbrev Text := List Char

/-- The white-space characters of Unicode. -/
def isBlank (c : Char) : Bool :=
  let n := c.toNat
  (0x9 ≤ n && n ≤ 0xd) || n == 0x20 || n == 0x85 || n == 0xa0 || n == 0x1680 ||
    (0x2000 ≤ n && n ≤ 0x200a) || n == 0x2028 || n == 0x2029 || n == 0x202f ||
    n == 0x205f || n == 0x3000

/-- The letters that stand for notes: the unaccented ones, in both cases. -/
def isLetter (c : Char) : Bool :=
  c.isAlpha

namespace Text

/-- The text without the longest stretches of `p` at both ends. -/
def trimBy (p : Char → Bool) (s : Text) : Text :=
  ((s.dropWhile p).reverse.dropWhile p).reverse

def trim (s : Text) : Text :=
  trimBy isBlank s

def withoutEnd? (e s : Text) : Option Text :=
  if e <:+ s then some (s.take (s.length - e.length)) else none

def occurs (pattern : Text) : Text → Bool
  | [] => pattern.isEmpty
  | c :: r => pattern.isPrefixOf (c :: r) || occurs pattern r

theorem occurs_iff {pattern s : Text} : occurs pattern s = true ↔ pattern <:+: s := by
  induction s with
  | nil => simp [occurs]
  | cons c r ih => simp [occurs, ih, List.infix_cons_iff, List.isPrefixOf_iff_prefix]

def splitAtFirst? (stop : Char) : Text → Option (Text × Text)
  | [] => none
  | c :: r =>
    if c = stop then some ([], r)
    else (splitAtFirst? stop r).map fun (before, behind) => (c :: before, behind)

theorem splitAtFirst?_eq_some_iff {stop : Char} {s before behind : Text} :
    splitAtFirst? stop s = some (before, behind) ↔
      s = before ++ stop :: behind ∧ stop ∉ before := by
  induction s generalizing before with
  | nil => simp [splitAtFirst?]
  | cons c r ih =>
    unfold splitAtFirst?
    split
    · rename_i h
      subst h
      cases before with
      | nil => simp
      | cons d before => simp; rintro rfl; simp
    · rename_i h
      cases before with
      | nil => simp [h]
      | cons d before =>
        simp [ih]
        grind

/-- The first `stop` of a text divides it in one way only. -/
theorem append_cons_inj {stop : Char} {before before' behind behind' : Text}
    (h : stop ∉ before) (h' : stop ∉ before')
    (heq : before ++ stop :: behind = before' ++ stop :: behind') :
    before = before' ∧ behind = behind' := by
  have hsplit : splitAtFirst? stop (before ++ stop :: behind) = some (before, behind) :=
    splitAtFirst?_eq_some_iff.mpr ⟨rfl, h⟩
  rw [heq, splitAtFirst?_eq_some_iff.mpr ⟨rfl, h'⟩, Option.some_inj] at hsplit
  exact (Prod.mk.inj hsplit).imp Eq.symm Eq.symm

/-- The lines of a text.  A line ends at a line feed, with the carriage return
directly before it, or at the end of the text.  A line feed at the very end
opens no further line. -/
def lines : Text → List Text
  | [] => []
  | '\n' :: r => [] :: lines r
  | '\r' :: '\n' :: r => [] :: lines r
  | c :: r =>
    match lines r with
    | [] => [[c]]
    | line :: rest => (c :: line) :: rest

def ofNat (n : Nat) : Text :=
  Nat.toDigits 10 n

end Text

end ProseScore
