import ProseScore.Config.Basic
import ProseScore.Token.Cell

/-!
# Loop regions

A region is a pair of matching loop brackets that no other pair encloses.
Brackets between quotes do not count, and a bracket without a partner does not
matter.  A region is known by its text and by how many regions before it have
the same one, so it keeps its key wherever it moves.
-/

namespace ProseScore

structure RegionKey where
  content : Text
  /-- The number of earlier regions of the paragraph with this content. -/
  occurrence : Nat
  deriving DecidableEq, Repr

/-- A pair of loop brackets and what stands between them. -/
structure Region where
  key : RegionKey
  /-- The positions of the brackets. -/
  left : Nat
  right : Nat
  deriving DecidableEq, Repr

namespace Region

def interior (r : Region) : Extent :=
  ⟨r.left + 1, r.right⟩

variable {R : Type}

/-- The matching brackets of cells in the order of their right ones.  The left
brackets that wait for a partner are in `waiting`, the latest first. -/
def pairs (symbols : Symbols) : (muted : Bool) → (waiting : List Nat) → List (Cell R) →
    List (Nat × Nat)
  | _, _, [] => []
  | muted, waiting, c :: cs =>
    if c.char = symbols .quote then pairs symbols (!muted) waiting cs
    else if muted then pairs symbols muted waiting cs
    else if c.char = symbols .loopOpen then pairs symbols muted (c.position :: waiting) cs
    else if c.char = symbols .loopClose then
      match waiting with
      | [] => pairs symbols muted [] cs
      | left :: waiting => (left, c.position) :: pairs symbols muted waiting cs
    else pairs symbols muted waiting cs

def Encloses (outer inner : Nat × Nat) : Prop :=
  outer.1 < inner.1 ∧ inner.2 < outer.2

instance (outer inner : Nat × Nat) : Decidable (Encloses outer inner) :=
  inferInstanceAs (Decidable (_ ∧ _))

/-- The pairs that no other one encloses.  Pairs in the order of their right
brackets are then in the order of their left ones, too. -/
def outermost (ps : List (Nat × Nat)) : List (Nat × Nat) :=
  ps.filter fun p => !ps.any fun q => decide (Encloses q p)

/-- The regions of pairs of brackets around contents, behind regions with the
contents `seen`. -/
def keyed (seen : List Text) : List (Nat × Nat × Text) → List Region
  | [] => []
  | (left, right, content) :: ps =>
    ⟨⟨content, seen.count content⟩, left, right⟩ :: keyed (content :: seen) ps

def ofCells (symbols : Symbols) (cs : List (Cell R)) : List Region :=
  keyed [] <| (outermost (pairs symbols false [] cs)).map fun (left, right) =>
    (left, right, Cell.text (Extent.cells ⟨left + 1, right⟩ cs))

def find? (regions : List Region) (key : RegionKey) : Option Region :=
  regions.find? (·.key = key)

end Region

end ProseScore
