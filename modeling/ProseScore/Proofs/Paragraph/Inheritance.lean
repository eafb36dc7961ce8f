import Mathlib.Data.List.Induction
import Mathlib.Logic.ExistsUnique
import ProseScore.Scalar.Exact
import ProseScore.Session.Keystroke

/-!
# Inherited attributes

A character stands inside a chain of spans, and its attributes depend on these spans
alone.  It is bold, italic or underlined if one of them says so, and it has the color
and the size of the innermost span that declares one.
-/

namespace ProseScore

variable {R : Type}

/-- The attributes of a character inside these spans, the outermost first.  The color and
the size are the last ones that a span declares on the way in; undeclared text is black and
of size `base`. -/
def Attributes.inside (base : R) (spans : List (Style R)) : Attributes R where
  bold := spans.any Style.bold
  italic := spans.any Style.italic
  underline := spans.any Style.underline
  color := (spans.filterMap Style.color).getLastD .black
  size := (spans.filterMap Style.size).getLastD base

theorem Attributes.inside_concat (base : R) (spans : List (Style R)) (style : Style R) :
    inside base (spans ++ [style]) = (inside base spans).within style := by
  simp [inside, within]

theorem Attributes.foldl_within (base : R) (spans : List (Style R)) :
    spans.foldl within (plain base) = inside base spans := by
  induction spans using List.reverseRecOn with
  | nil => rfl
  | append_singleton spans style ih =>
      rw [List.foldl_append, ih, inside_concat]
      rfl

namespace Paragraph

/-- The character `c` stands at position `i` of the text, inside these spans of the
paragraph, the outermost first. -/
inductive Holds : Paragraph R → (spans : List (Style R)) → (i : Nat) → (c : Char) → Prop
  | here {s : Text} {next : Paragraph R} {i : Nat} {c : Char} (h : s[i]? = some c) :
      Holds (.run s next) [] i c
  | behindRun {s : Text} {next : Paragraph R} {spans : List (Style R)} {i : Nat} {c : Char} :
      Holds next spans i c → Holds (.run s next) spans (s.length + i) c
  | inside {style : Style R} {inner next : Paragraph R} {spans : List (Style R)} {i : Nat}
      {c : Char} : Holds inner spans i c → Holds (.span style inner next) (style :: spans) i c
  | behindSpan {style : Style R} {inner next : Paragraph R} {spans : List (Style R)} {i : Nat}
      {c : Char} :
      Holds next spans i c → Holds (.span style inner next) spans (inner.text.length + i) c

theorem holds_run_iff {s : Text} {next : Paragraph R} {spans : List (Style R)} {i : Nat}
    {c : Char} : (run s next).Holds spans i c ↔
      spans = [] ∧ s[i]? = some c ∨ ∃ j, i = s.length + j ∧ next.Holds spans j c := by
  constructor
  · intro h
    cases h with
    | here h => exact .inl ⟨rfl, h⟩
    | behindRun h => exact .inr ⟨_, rfl, h⟩
  · rintro (⟨rfl, h⟩ | ⟨j, rfl, h⟩)
    · exact .here h
    · exact .behindRun h

theorem holds_span_iff {style : Style R} {inner next : Paragraph R} {spans : List (Style R)}
    {i : Nat} {c : Char} : (span style inner next).Holds spans i c ↔
      (∃ inside, spans = style :: inside ∧ inner.Holds inside i c) ∨
        ∃ j, i = inner.text.length + j ∧ next.Holds spans j c := by
  constructor
  · intro h
    cases h with
    | inside h => exact .inl ⟨_, rfl, h⟩
    | behindSpan h => exact .inr ⟨_, rfl, h⟩
  · rintro (⟨inside, rfl, h⟩ | ⟨j, rfl, h⟩)
    · exact .inside h
    · exact .behindSpan h

theorem length_glyphsWithin (a : Attributes R) (p : Paragraph R) :
    (p.glyphsWithin a).length = p.text.length := by
  rw [← map_char_glyphsWithin a p, List.length_map]

theorem length_glyphs (base : R) (p : Paragraph R) :
    (p.glyphs base).length = p.text.length :=
  length_glyphsWithin _ p

/-- The spans around a character add to the attributes around the paragraph one after
the other. -/
theorem Holds.getElem?_glyphsWithin {p : Paragraph R} {spans : List (Style R)} {i : Nat}
    {c : Char} (h : p.Holds spans i c) (a : Attributes R) :
    (p.glyphsWithin a)[i]? = some ⟨c, spans.foldl .within a⟩ := by
  induction h generalizing a with
  | @here s next i c hc =>
      have hlt : i < s.length := (List.getElem?_eq_some_iff.mp hc).1
      rw [glyphsWithin, List.getElem?_append_left (by rwa [List.length_map]), List.getElem?_map, hc]
      rfl
  | @behindRun s next spans i c _ ih =>
      rw [glyphsWithin, List.getElem?_append_right (by simp), List.length_map,
        Nat.add_sub_cancel_left, ih]
  | @inside style inner next spans i c _ ih =>
      have hlt := (List.getElem?_eq_some_iff.mp (ih (a.within style))).1
      rw [glyphsWithin, List.getElem?_append_left hlt, ih]
      rfl
  | @behindSpan style inner next spans i c _ ih =>
      rw [glyphsWithin, List.getElem?_append_right (by simp [length_glyphsWithin]),
        length_glyphsWithin, Nat.add_sub_cancel_left, ih]

theorem Holds.getElem?_glyphs {p : Paragraph R} {spans : List (Style R)} {i : Nat} {c : Char}
    (h : p.Holds spans i c) (base : R) :
    (p.glyphs base)[i]? = some ⟨c, .inside base spans⟩ := by
  rw [glyphs, h.getElem?_glyphsWithin, Attributes.foldl_within]

theorem Holds.getElem?_text {p : Paragraph R} {spans : List (Style R)} {i : Nat} {c : Char}
    (h : p.Holds spans i c) (base : R) : p.text[i]? = some c := by
  rw [← p.map_char_glyphs base, List.getElem?_map, h.getElem?_glyphs base]
  rfl

theorem exists_holds {p : Paragraph R} {i : Nat} {c : Char} (h : p.text[i]? = some c) :
    ∃ spans, p.Holds spans i c := by
  induction p generalizing i with
  | done => exact absurd h (Option.some_ne_none c ∘ Eq.symm)
  | run s next ih =>
      rw [text] at h
      rcases Nat.lt_or_ge i s.length with hlt | hle
      · rw [List.getElem?_append_left hlt] at h
        exact ⟨[], .here h⟩
      · rw [List.getElem?_append_right hle] at h
        obtain ⟨spans, hspans⟩ := ih h
        exact ⟨spans, holds_run_iff.mpr (.inr ⟨_, by omega, hspans⟩)⟩
  | span style inner next ih₁ ih₂ =>
      rw [text] at h
      rcases Nat.lt_or_ge i inner.text.length with hlt | hle
      · rw [List.getElem?_append_left hlt] at h
        obtain ⟨spans, hspans⟩ := ih₁ h
        exact ⟨style :: spans, .inside hspans⟩
      · rw [List.getElem?_append_right hle] at h
        obtain ⟨spans, hspans⟩ := ih₂ h
        exact ⟨spans, holds_span_iff.mpr (.inr ⟨_, by omega, hspans⟩)⟩

/-- The chain of spans is settled by the position. -/
theorem Holds.unique (base : R) {p : Paragraph R} {spans spans' : List (Style R)} {i : Nat}
    {c d : Char} (h : p.Holds spans i c) (h' : p.Holds spans' i d) : spans = spans' := by
  induction p generalizing spans spans' i with
  | done => cases h
  | run s next ih =>
      obtain ⟨rfl, hc⟩ | ⟨j, rfl, hj⟩ := holds_run_iff.mp h
      · have hlt := (List.getElem?_eq_some_iff.mp hc).1
        obtain ⟨rfl, -⟩ | ⟨j, rfl, -⟩ := holds_run_iff.mp h'
        · rfl
        · omega
      · obtain ⟨-, hd⟩ | ⟨k, hk, h'⟩ := holds_run_iff.mp h'
        · have hlt := (List.getElem?_eq_some_iff.mp hd).1
          omega
        · obtain rfl : j = k := by omega
          exact ih hj h'
  | span style inner next ih₁ ih₂ =>
      obtain ⟨outer, rfl, hi⟩ | ⟨j, rfl, hj⟩ := holds_span_iff.mp h
      · have hlt := (List.getElem?_eq_some_iff.mp (hi.getElem?_text base)).1
        obtain ⟨outer', rfl, hi'⟩ | ⟨j, rfl, -⟩ := holds_span_iff.mp h'
        · rw [ih₁ hi hi']
        · omega
      · obtain ⟨outer', rfl, hi'⟩ | ⟨k, hk, h'⟩ := holds_span_iff.mp h'
        · have hlt := (List.getElem?_eq_some_iff.mp (hi'.getElem?_text base)).1
          omega
        · obtain rfl : j = k := by omega
          exact ih₂ hj h'

theorem Holds.attributesAt_succ {p : Paragraph R} {spans : List (Style R)} {i : Nat} {c : Char}
    (h : p.Holds spans i c) (base : R) : p.attributesAt base (i + 1) = .inside base spans := by
  simp [attributesAt, h.getElem?_glyphs base]

/-- **Attributes are inherited from the spans around.**  A paragraph has one glyph for each
character of its text, in the same order, so that text, cells and carets count alike.
Each character stands in one chain of spans, and this chain alone decides its
attributes. -/
theorem glyphs_inherit_from_spans (base : R) (p : Paragraph R) :
    (p.glyphs base).map Glyph.char = p.text ∧
    (∀ i c, p.text[i]? = some c → ∃! spans, p.Holds spans i c) ∧
    ∀ spans i c, p.Holds spans i c →
      p.text[i]? = some c ∧
      (p.glyphs base)[i]? = some ⟨c, .inside base spans⟩ ∧
      (∃ letters, (Cell.ofParagraph base p)[i]? = some ⟨⟨c, .inside base spans⟩, i, letters⟩) ∧
      p.attributesAt base (i + 1) = .inside base spans := by
  refine ⟨p.map_char_glyphs base, fun i c hc => ?_, fun spans i c h => ?_⟩
  · obtain ⟨spans, h⟩ := exists_holds hc
    exact ⟨spans, h, fun spans' h' => h'.unique base h⟩
  · have hglyph := h.getElem?_glyphs base
    refine ⟨h.getElem?_text base, hglyph, ?_, h.attributesAt_succ base⟩
    rw [Cell.ofParagraph, Cell.getElem?_number, hglyph]
    exact ⟨_, rfl⟩

/-- Behind a blue sibling in bold face, what is underlined inside a red span is red and of
the size of the red span. -/
theorem glyphs_inherit_past_sibling :
    let underlined : Style Rat := { underline := true }
    let red : Style Rat := { color := some .red, size := some 20 }
    let p : Paragraph Rat := .run ['x'] (.span red
      (.span { bold := true, color := some .blue } (.run ['a'] .done)
        (.run ['b'] (.span underlined (.run ['c', 'd'] .done) .done))) .done)
    p.Holds [red, underlined] 4 'd' ∧
      (p.glyphs 12)[4]? = some ⟨'d', ⟨false, false, true, .red, 20⟩⟩ ∧
      p.attributesAt 12 5 = ⟨false, false, true, .red, 20⟩ := by
  intro underlined red p
  have h : p.Holds [red, underlined] 4 'd' :=
    .behindRun (i := 3) (.inside (.behindSpan (i := 2) (.behindRun (i := 1) (.inside (.here rfl)))))
  obtain ⟨-, hglyph, -, hcaret⟩ := (glyphs_inherit_from_spans 12 p).2.2 _ _ _ h
  exact ⟨h, hglyph, hcaret⟩

end Paragraph

end ProseScore
