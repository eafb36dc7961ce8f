import ProseScore.Paragraph.Glyph

/-!
# Cells

A cell is a glyph in its place: it knows how many glyphs and how many letters of
its paragraph stand before it.  A stretch of cells that is cut out of a
paragraph keeps these counts.
-/

namespace ProseScore

/-- A glyph, the number of glyphs before it and the number of letters before
it. -/
structure Cell (R : Type) extends Glyph R where
  position : Nat
  letterIndex : Nat
  deriving DecidableEq, Repr

/-- A stretch of positions: from `start` up to but not including `stop`. -/
structure Extent where
  start : Nat
  stop : Nat
  deriving DecidableEq, Repr

variable {R : Type}

namespace Cell

def numberFrom (position letters : Nat) : List (Glyph R) → List (Cell R)
  | [] => []
  | g :: gs =>
    ⟨g, position, letters⟩ ::
      numberFrom (position + 1) (if isLetter g.char then letters + 1 else letters) gs

def number (gs : List (Glyph R)) : List (Cell R) :=
  numberFrom 0 0 gs

theorem numberFrom_append (p l : Nat) (gs hs : List (Glyph R)) :
    numberFrom p l (gs ++ hs) =
      numberFrom p l gs ++
        numberFrom (p + gs.length) (l + gs.countP fun g => isLetter g.char) hs := by
  induction gs generalizing p l with
  | nil => rfl
  | cons g gs ih =>
    have hletters : (if isLetter g.char then l + 1 else l) + gs.countP (fun g => isLetter g.char) =
        l + (g :: gs).countP fun g => isLetter g.char := by
      rw [List.countP_cons]
      split <;> omega
    rw [List.cons_append, numberFrom, numberFrom, ih, hletters, List.length_cons,
      List.cons_append, Nat.add_right_comm p 1 gs.length, Nat.add_assoc p]

theorem take_numberFrom (p l i : Nat) (gs : List (Glyph R)) :
    (numberFrom p l gs).take i = numberFrom p l (gs.take i) := by
  induction gs generalizing p l i with
  | nil => simp [numberFrom]
  | cons g gs ih =>
    cases i with
    | zero => rfl
    | succ i => rw [numberFrom, List.take_succ_cons, List.take_succ_cons, numberFrom, ih]

theorem take_number (i : Nat) (gs : List (Glyph R)) :
    (number gs).take i = number (gs.take i) :=
  take_numberFrom 0 0 i gs

theorem map_toGlyph_numberFrom (p l : Nat) (gs : List (Glyph R)) :
    (numberFrom p l gs).map Cell.toGlyph = gs := by
  induction gs generalizing p l with
  | nil => rfl
  | cons g gs ih => simp [numberFrom, ih]

@[simp] theorem map_toGlyph_number (gs : List (Glyph R)) :
    (number gs).map Cell.toGlyph = gs :=
  map_toGlyph_numberFrom 0 0 gs

@[simp] theorem length_number (gs : List (Glyph R)) : (number gs).length = gs.length := by
  have h := congrArg List.length (map_toGlyph_number gs)
  rwa [List.length_map] at h

theorem getElem?_numberFrom (p l : Nat) (gs : List (Glyph R)) (i : Nat) :
    (numberFrom p l gs)[i]? =
      gs[i]?.map fun g => ⟨g, p + i, l + (gs.take i).countP fun g => isLetter g.char⟩ := by
  induction gs generalizing p l i with
  | nil => simp [numberFrom]
  | cons g gs ih =>
    cases i with
    | zero => simp [numberFrom]
    | succ i =>
      simp only [numberFrom, List.getElem?_cons_succ, ih, List.take_succ_cons, List.countP_cons]
      congr 1
      funext g'
      split <;> simp_all <;> omega

theorem getElem?_number (gs : List (Glyph R)) (i : Nat) :
    (number gs)[i]? =
      gs[i]?.map fun g => ⟨g, i, (gs.take i).countP fun g => isLetter g.char⟩ := by
  simp [number, getElem?_numberFrom]

def text (cs : List (Cell R)) : Text :=
  cs.map (·.char)

theorem text_numberFrom (p l : Nat) (gs : List (Glyph R)) :
    text (numberFrom p l gs) = gs.map Glyph.char := by
  have h := congrArg (List.map Glyph.char) (map_toGlyph_numberFrom p l gs)
  rwa [List.map_map] at h

theorem text_number (gs : List (Glyph R)) : text (number gs) = gs.map Glyph.char :=
  text_numberFrom 0 0 gs

/-- The cells of a paragraph in which undeclared text has size `base`. -/
def ofParagraph (base : R) (p : Paragraph R) : List (Cell R) :=
  number (p.glyphs base)

theorem text_ofParagraph (base : R) (p : Paragraph R) : text (ofParagraph base p) = p.text := by
  rw [ofParagraph, text_number, p.map_char_glyphs base]

end Cell

/-- The cells of an extent.  Positions beyond the last cell have none. -/
def Extent.cells (e : Extent) (cs : List (Cell R)) : List (Cell R) :=
  (cs.drop e.start).take (e.stop - e.start)

end ProseScore
