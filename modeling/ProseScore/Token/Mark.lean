import ProseScore.Config.Basic
import ProseScore.Token.Basic

/-!
# Marks

A mark is what a cell means to the reader of a paragraph.  Cells that stand
between quotes, and characters without a meaning, leave no mark.
-/

namespace ProseScore

/-- What a cell means to the reader of a paragraph. -/
inductive Mark (R : Type) where
  | letter (letter : Letter R)
  /-- The word here is accented. -/
  | accent
  /-- The word here plays random pitches. -/
  | random
  | rest
  /-- A word ends here. -/
  | gap
  deriving DecidableEq, Repr

namespace Mark

variable {R : Type}

def ofCell? (symbols : Symbols) (c : Cell R) : Option (Mark R) :=
  if c.char = symbols .rest then some .rest
  else if isBlank c.char || c.char = symbols .loopOpen || c.char = symbols .loopClose then
    some .gap
  else if isLetter c.char then some (.letter ⟨c.char, c.attributes, c.letterIndex⟩)
  else if c.char = symbols .accent then some .accent
  else if c.char = symbols .random then some .random
  else none

/-- The marks of cells.  Each quote is a gap and opens or closes a muted
stretch.  Where cells have been cut out, `none` stands for a gap. -/
def ofCells (symbols : Symbols) : (muted : Bool) → List (Option (Cell R)) → List (Mark R)
  | _, [] => []
  | muted, none :: cs => .gap :: ofCells symbols muted cs
  | muted, some c :: cs =>
    if c.char = symbols .quote then .gap :: ofCells symbols (!muted) cs
    else if muted then ofCells symbols muted cs
    else (ofCell? symbols c).toList ++ ofCells symbols muted cs

/-- Whether a stretch of cells leaves what stands behind it muted. -/
def mutedBehind (symbols : Symbols) (muted : Bool) (cs : List (Option (Cell R))) : Bool :=
  cs.foldl (fun muted c => if c.any (·.char = symbols .quote) then !muted else muted) muted

theorem ofCells_append (symbols : Symbols) (muted : Bool) (xs ys : List (Option (Cell R))) :
    ofCells symbols muted (xs ++ ys) =
      ofCells symbols muted xs ++ ofCells symbols (mutedBehind symbols muted xs) ys := by
  induction xs generalizing muted with
  | nil => rfl
  | cons x xs ih =>
    cases x with
    | none => simp [ofCells, ih, mutedBehind]
    | some c =>
      simp only [List.cons_append, ofCells, ih, mutedBehind, List.foldl_cons, Option.any_some,
        decide_eq_true_eq]
      by_cases hq : c.char = symbols .quote
      · simp [hq]
      · cases muted <;> simp [hq]

end Mark

/-- Cut extents out of cells.  Where a cell begins one of them, the cells up to
its end go and `none` takes their place.  An extent that begins inside another
one is not looked at. -/
def Extent.cut {R : Type} (excluded : List Extent) :
    (resume : Nat) → List (Cell R) → List (Option (Cell R))
  | _, [] => []
  | resume, c :: cs =>
    if c.position < resume then cut excluded resume cs
    else
      match excluded.find? fun e => e.start = c.position ∧ c.position < e.stop with
      | some e => none :: cut excluded e.stop cs
      | none => some c :: cut excluded resume cs

theorem Extent.cut_nil {R : Type} {resume : Nat} {cs : List (Cell R)}
    (h : ∀ c ∈ cs, resume ≤ c.position) : Extent.cut [] resume cs = cs.map some := by
  induction cs with
  | nil => rfl
  | cons c cs ih =>
    have hc : ¬ c.position < resume := Nat.not_lt.mpr (h c List.mem_cons_self)
    simp [Extent.cut, hc, ih fun d hd => h d (List.mem_cons_of_mem _ hd)]

end ProseScore
