import ProseScore.Sound.Keystream
import ProseScore.Sound.Pitch

/-!
# Random pitches

A generator draws pitches from a keystream.  Each draw takes the next number of
the stream that is fit, so the drawn pitches hang on the seed and on how many
numbers have been taken before, and on nothing else.
-/

namespace ProseScore

/-- A keystream and how many of its numbers have been taken. -/
structure Generator where
  key : Keystream.Key
  taken : Nat

namespace Generator

def ofSeed (seed : UInt64) : Generator :=
  ⟨Keystream.Key.ofSeed seed, 0⟩

/-- The generator of a seed, or the one that is drawn where there is no seed. -/
def begin (seed : Option UInt64) (drawn : Generator) : Generator :=
  (seed.map ofSeed).getD drawn

/-- The pitch of a number of sixty-four bits.  The number is scaled to the count
of pitches; where the fraction is too large to be fair, it is not fit. -/
def pitch? (v : Nat) : Option Pitch :=
  if v * 21 % Nat.pow 2 64 < 21 * Nat.pow 2 59 then
    some ⟨v * 21 / Nat.pow 2 64 % 21, Nat.mod_lt _ (by decide)⟩
  else none

/-- The pitch of the first fit number of the stream from the `n`-th on, and how
many numbers are then taken.  A search without end gives the lowest pitch. -/
def search (key : Keystream.Key) : (fuel n : Nat) → Pitch × Nat
  | 0, n => (0, n)
  | fuel + 1, n =>
    match pitch? (Keystream.number key n) with
    | some p => (p, n + 1)
    | none => search key fuel (n + 1)

/-- Draw a pitch.  The keystream starts over after `2 ^ 67` numbers, so what is
not found up to there is never found. -/
def next (g : Generator) : Pitch × Generator :=
  let (p, taken) := search g.key (Nat.pow 2 67) g.taken
  (p, { g with taken })

def draw : Nat → Generator → List Pitch × Generator
  | 0, g => ([], g)
  | n + 1, g =>
    let (p, g) := g.next
    let (ps, g) := draw n g
    (p :: ps, g)

theorem length_draw (n : Nat) (g : Generator) : (g.draw n).1.length = n := by
  induction n generalizing g with
  | zero => rfl
  | succ n ih => simp [draw, ih]

end Generator

end ProseScore
