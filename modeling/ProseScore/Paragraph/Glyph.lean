import ProseScore.Paragraph.Basic

/-!
# Glyphs

The characters of a paragraph in reading order, each with the attributes that it
has inside the spans around it.
-/

namespace ProseScore

structure Glyph (R : Type) where
  char : Char
  attributes : Attributes R
  deriving BEq, DecidableEq, Repr

namespace Paragraph

variable {R : Type}

/-- The glyphs of a paragraph that stands inside attributes `a`. -/
def glyphsWithin (a : Attributes R) : Paragraph R → List (Glyph R)
  | done => []
  | run s next => s.map (⟨·, a⟩) ++ next.glyphsWithin a
  | span style inner next => inner.glyphsWithin (a.within style) ++ next.glyphsWithin a

/-- The glyphs of a paragraph whose undeclared size is `base`. -/
def glyphs (base : R) (p : Paragraph R) : List (Glyph R) :=
  p.glyphsWithin (.plain base)

theorem map_char_glyphsWithin (a : Attributes R) (p : Paragraph R) :
    (p.glyphsWithin a).map Glyph.char = p.text := by
  induction p generalizing a with
  | done => rfl
  | run s next ih => simp [glyphsWithin, text, ih, Function.comp_def]
  | span style inner next ih₁ ih₂ => simp [glyphsWithin, text, ih₁, ih₂]

/-- The glyphs spell the text of the paragraph. -/
theorem map_char_glyphs (base : R) (p : Paragraph R) :
    (p.glyphs base).map Glyph.char = p.text :=
  map_char_glyphsWithin _ p

end Paragraph

end ProseScore
