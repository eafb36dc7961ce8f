import ProseScore.Proofs.Region.Brackets
import ProseScore.Proofs.Token.Letters

/-!
# Which letters sound

A letter sounds if it stands outside quotes and is not a symbol that the reader
takes for something else.  It is read once, with the attributes and the ordinal
that it has in its paragraph.
-/

namespace ProseScore

variable {R : Type}

theorem isBlank_of_isLetter {c : Char} (h : isLetter c = true) : isBlank c = false := by
  have hcase : (c.isUpper || c.isLower) = true := h
  have hbounds : 65 ≤ c.toNat ∧ c.toNat ≤ 122 := by
    rcases Bool.or_eq_true_iff.mp hcase with hupper | hlower
    · have hrange : 65 ≤ c.val ∧ c.val ≤ 90 := of_decide_eq_true hupper
      exact ⟨hrange.1, Nat.le_trans hrange.2 (by decide)⟩
    · have hrange : (decide (97 ≤ c.val) && decide (c.val ≤ 122)) = true := hlower
      rw [Bool.and_eq_true, decide_eq_true_eq, decide_eq_true_eq] at hrange
      exact ⟨Nat.le_trans (by decide) hrange.1, hrange.2⟩
  simp only [isBlank]
  grind

/-- The character is read as a letter where it is not muted. -/
structure Symbols.IsNote (symbols : Symbols) (c : Char) : Prop where
  isLetter : isLetter c = true
  ne_quote : c ≠ symbols .quote
  ne_rest : c ≠ symbols .rest
  ne_loopOpen : c ≠ symbols .loopOpen
  ne_loopClose : c ≠ symbols .loopClose

def Cell.letter (c : Cell R) : Letter R :=
  ⟨c.char, c.attributes, c.letterIndex⟩

namespace Mark

variable {symbols : Symbols}

theorem ofCell?_eq_letter_iff {c : Cell R} {l : Letter R} (hq : c.char ≠ symbols .quote) :
    ofCell? symbols c = some (.letter l) ↔ symbols.IsNote c.char ∧ l = c.letter := by
  constructor
  · intro h
    rw [ofCell?] at h
    split_ifs at h with hr hgap hl
    · cases h
    · cases h
    · simp only [Bool.or_eq_true, decide_eq_true_eq, not_or] at hgap
      obtain ⟨⟨-, ho⟩, hc⟩ := hgap
      exact ⟨⟨hl, hq, hr, ho, hc⟩, (Mark.letter.inj (Option.some_inj.mp h)).symm⟩
    · cases h
    · cases h
  · rintro ⟨h, rfl⟩
    have hgap : ¬ (isBlank c.char || decide (c.char = symbols .loopOpen) ||
        decide (c.char = symbols .loopClose)) = true := by
      simp [isBlank_of_isLetter h.isLetter, h.ne_loopOpen, h.ne_loopClose]
    rw [ofCell?, if_neg h.ne_rest, if_neg hgap, if_pos h.isLetter]
    rfl

theorem letter_mem_ofCells_cons {muted : Bool} {c : Cell R} {cs : List (Option (Cell R))}
    {l : Letter R} :
    .letter l ∈ ofCells symbols muted (some c :: cs) ↔
      (muted = false ∧ symbols.IsNote c.char ∧ l = c.letter) ∨
        .letter l ∈ ofCells symbols (if c.char = symbols .quote then !muted else muted) cs := by
  rw [ofCells]
  by_cases hq : c.char = symbols .quote
  · have hnote : ¬ (muted = false ∧ symbols.IsNote c.char ∧ l = c.letter) :=
      fun h => h.2.1.ne_quote hq
    rw [if_pos hq, if_pos hq, or_iff_right hnote, List.mem_cons, or_iff_right (by simp)]
  · rw [if_neg hq, if_neg hq]
    cases muted with
    | true => simp
    | false => simp [← ofCell?_eq_letter_iff hq]

theorem letter_mem_ofCells_iff {muted : Bool} {cs : List (Cell R)} {l : Letter R} :
    .letter l ∈ ofCells symbols muted (cs.map some) ↔
      ∃ i c, cs[i]? = some c ∧ mutedBehind symbols muted ((cs.take i).map some) = false ∧
        symbols.IsNote c.char ∧ l = c.letter := by
  induction cs generalizing muted with
  | nil => simp [ofCells]
  | cons c cs ih =>
      have hbehind (i : Nat) : mutedBehind symbols muted (((c :: cs).take (i + 1)).map some) =
          mutedBehind symbols (if c.char = symbols .quote then !muted else muted)
            ((cs.take i).map some) := by
        simp [mutedBehind]
      rw [List.map_cons, letter_mem_ofCells_cons, ih]
      constructor
      · rintro (⟨hmuted, hnote⟩ | ⟨i, d, hd, hmuted, hnote⟩)
        · exact ⟨0, c, rfl, hmuted, hnote⟩
        · exact ⟨i + 1, d, hd, (hbehind i).trans hmuted, hnote⟩
      · rintro ⟨i, d, hd, hmuted, hnote⟩
        cases i with
        | zero =>
            obtain rfl : c = d := Option.some_inj.mp hd
            exact Or.inl ⟨hmuted, hnote⟩
        | succ i => exact Or.inr ⟨i, d, hd, (hbehind i).symm.trans hmuted, hnote⟩

theorem letter_mem_iff {ms : List (Mark R)} {l : Letter R} :
    l ∈ ms.filterMap letter? ↔ .letter l ∈ ms := by
  rw [List.mem_filterMap]
  constructor
  · rintro ⟨m, hm, hl⟩
    cases m <;> simp_all [letter?]
  · exact fun h => ⟨_, h, rfl⟩

/-- No letter is read twice, and none before one that stands in front of it. -/
theorem letters_sublist (symbols : Symbols) (muted : Bool) (cs : List (Cell R)) :
    ((ofCells symbols muted (cs.map some)).filterMap letter?).Sublist
      ((cs.filter fun c => isLetter c.char).map Cell.letter) := by
  induction cs generalizing muted with
  | nil => exact List.Sublist.refl []
  | cons c cs ih =>
      have hfilter : (((c :: cs).filter fun c => isLetter c.char).map Cell.letter) =
          (([c].filter fun c => isLetter c.char).map Cell.letter) ++
            ((cs.filter fun c => isLetter c.char).map Cell.letter) := by
        rw [← List.map_append, ← List.filter_append, List.singleton_append]
      rw [hfilter, List.map_cons, ofCells]
      split_ifs with hq hm
      · exact (ih _).trans (List.sublist_append_right _ _)
      · exact (ih _).trans (List.sublist_append_right _ _)
      · -- Only here, outside quotes, can the cell give a letter.
        rw [List.filterMap_append]
        refine List.Sublist.append ?_ (ih _)
        cases hcell : ofCell? symbols c with
        | none => exact List.nil_sublist _
        | some m =>
            cases m with
            | letter l =>
                obtain ⟨hnote, rfl⟩ := (ofCell?_eq_letter_iff hq).mp hcell
                simp [hnote.isLetter, letter?]
            | accent => exact List.nil_sublist _
            | random => exact List.nil_sublist _
            | rest => exact List.nil_sublist _
            | gap => exact List.nil_sublist _

end Mark

/-! ## Ordinals -/

theorem Cell.le_letterIndex_of_mem_numberFrom {position letters : Nat} {gs : List (Glyph R)}
    {c : Cell R} (h : c ∈ numberFrom position letters gs) : letters ≤ c.letterIndex := by
  induction gs generalizing position letters with
  | nil => exact absurd h List.not_mem_nil
  | cons g gs ih =>
      rcases List.mem_cons.mp h with rfl | h
      · exact Nat.le_refl _
      · have hle := ih h
        split_ifs at hle with hl
        · exact Nat.le_of_succ_le hle
        · exact hle

theorem Cell.increasing_ordinals_numberFrom (position letters : Nat) (gs : List (Glyph R)) :
    ((numberFrom position letters gs).filter fun c => isLetter c.char).Pairwise fun c d =>
      c.letterIndex < d.letterIndex := by
  induction gs generalizing position letters with
  | nil => exact List.Pairwise.nil
  | cons g gs ih =>
      rw [numberFrom, List.filter_cons]
      split_ifs with hl
      · refine List.pairwise_cons.mpr ⟨fun d hd => ?_, ih _ _⟩
        exact le_letterIndex_of_mem_numberFrom (List.mem_of_mem_filter hd)
      · exact ih _ _

/-- The ordinals of the letters that are read from a whole paragraph increase. -/
theorem Token.increasing_ordinals (config : Config R) (gs : List (Glyph R)) :
    (((Token.ofCells config [] (Cell.number gs)).flatMap Token.letters).map
      Letter.index).Pairwise (· < ·) := by
  have hsublist : List.Sublist _ _ :=
    (Mark.letters_sublist config.symbols false (Cell.number gs)).map Letter.index
  have hordinals := Cell.increasing_ordinals_numberFrom 0 0 gs
  rw [Token.ofCells, Extent.cut_nil fun c _ => Nat.zero_le c.position, Token.letters_ofMarks]
  refine List.Pairwise.sublist hsublist ?_
  rw [List.pairwise_map, List.pairwise_map]
  exact hordinals

/-- A letter of a paragraph is read exactly if it stands outside quotes and is
not a symbol. -/
theorem Token.mem_letters_iff {config : Config R} {gs : List (Glyph R)} {l : Letter R} :
    l ∈ (Token.ofCells config [] (Cell.number gs)).flatMap Token.letters ↔
      ∃ i g, gs[i]? = some g ∧ Even ((gs.take i).countP fun g => g.char = config.symbols .quote) ∧
        config.symbols.IsNote g.char ∧
        l = ⟨g.char, g.attributes, (gs.take i).countP fun g => isLetter g.char⟩ := by
  rw [Token.ofCells, Extent.cut_nil fun c _ => Nat.zero_le c.position, Token.letters_ofMarks,
    Mark.letter_mem_iff, Mark.letter_mem_ofCells_iff]
  have hquotes (i : Nat) :
      Mark.mutedBehind config.symbols false (((Cell.number gs).take i).map some) = false ↔
        Even ((gs.take i).countP fun g => g.char = config.symbols .quote) := by
    have htext : Cell.text ((Cell.number gs).take i) = (gs.take i).map Glyph.char := by
      rw [List.map_take, ← Cell.text_number, Cell.text, Cell.text, List.map_take]
    rw [Mark.mutedBehind_eq_self_iff, htext, List.count, List.countP_map]
    rfl
  constructor
  · rintro ⟨i, c, hc, hmuted, hnote, rfl⟩
    rw [Cell.getElem?_number, Option.map_eq_some_iff] at hc
    obtain ⟨g, hg, rfl⟩ := hc
    exact ⟨i, g, hg, (hquotes i).mp hmuted, hnote, rfl⟩
  · rintro ⟨i, g, hg, heven, hnote, rfl⟩
    have hcell := Cell.getElem?_number gs i
    rw [hg, Option.map_some] at hcell
    exact ⟨i, _, hcell, (hquotes i).mpr heven, hnote, rfl⟩

end ProseScore
