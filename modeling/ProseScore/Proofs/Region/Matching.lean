import ProseScore.Proofs.Config.Symbols
import ProseScore.Proofs.Region.Brackets
import ProseScore.Proofs.Region.Keys
import ProseScore.Scalar.Exact

/-!
# Matching brackets

Two brackets outside quotes match if the brackets between them are balanced.  This
says nothing of a scan or a stack, and yet it is what the scan finds: its pairs are
the matches, and the regions are the matches inside no other.
-/

namespace ProseScore

variable {R : Type} {symbols : Symbols}

namespace Bracket

/-- No prefix has more right brackets than left ones, and the whole has as many. -/
structure Balanced (bs : List Bracket) : Prop where
  count_eq : bs.countP isRight = bs.countP isLeft
  count_le : ∀ k, (bs.take k).countP isRight ≤ (bs.take k).countP isLeft

theorem closes_zero_iff {bs : List Bracket} : Closes 0 bs ↔ Balanced bs :=
  ⟨fun h => ⟨h.count_eq, h.count_le⟩, fun h => ⟨h.count_eq, h.count_le⟩⟩

theorem at?_eq_right_iff (hne : symbols .loopOpen ≠ symbols .loopClose) {cs : List (Cell R)}
    {i : Nat} : at? symbols cs i = some (.right i) ↔ BracketAt symbols .loopClose cs i := by
  rw [at?]
  split_ifs with hopen hclose
  · have hboth : ¬ BracketAt symbols .loopClose cs i := by
      intro hclose
      obtain ⟨c, hc, hchar, -⟩ := hopen.exists_cell
      exact hne (hchar.symm.trans ((bracketAt_iff hc).mp hclose).2.1)
    simp [hboth]
  · simp [hclose]
  · simp [hclose]

end Bracket

namespace Region

/-- The brackets of a pair match: both stand outside quotes, and the brackets outside
quotes strictly between them are balanced. -/
structure Matched (symbols : Symbols) (cs : List (Cell R)) (p : Nat × Nat) : Prop where
  left_lt_right : p.1 < p.2
  left_bracket : BracketAt symbols .loopOpen cs p.1
  right_bracket : BracketAt symbols .loopClose cs p.2
  balanced : Bracket.Balanced (Extent.brackets symbols cs ⟨p.1 + 1, p.2⟩)

/-- **The scan pairs the brackets that match.** -/
theorem mem_pairs_iff_matched (hne : symbols .loopOpen ≠ symbols .loopClose)
    {gs : List (Glyph R)} {p : Nat × Nat} :
    p ∈ pairs symbols false [] (Cell.number gs) ↔ Matched symbols (Cell.number gs) p := by
  rw [pairs_number_eq_brackets, Bracket.mem_pairs_iff]
  simp only [List.getElem?_nil, reduceCtorEq, false_and, exists_false, false_or]
  constructor
  · rintro ⟨front, rest, hleft, inner, behind, hright, hcloses⟩
    obtain ⟨-, -, hopen, -, rfl⟩ := Extent.brackets_eq_append_cons_iff.mp hleft
    obtain ⟨hlt, -, hclose, rfl, -⟩ := Extent.brackets_eq_append_cons_iff.mp hright
    exact ⟨hlt, Bracket.at?_eq_left_iff.mp hopen, (Bracket.at?_eq_right_iff hne).mp hclose,
      Bracket.closes_zero_iff.mp hcloses⟩
  · intro h
    have hstop : p.2 < gs.length := by
      rw [← Cell.length_number gs]
      exact h.right_bracket.lt_length
    have hlt := h.left_lt_right
    refine ⟨_, _, Extent.brackets_eq_append_cons_iff.mpr
      ⟨Nat.zero_le _, ?_, Bracket.at?_eq_left_iff.mpr h.left_bracket, rfl, rfl⟩, ?_⟩
    · exact Nat.lt_trans hlt hstop
    · exact ⟨_, _, Extent.brackets_eq_append_cons_iff.mpr
        ⟨hlt, hstop, (Bracket.at?_eq_right_iff hne).mpr h.right_bracket, rfl, rfl⟩,
        Bracket.closes_zero_iff.mpr h.balanced⟩

/-- **Regions are the outermost matches.** The scan lists the pairs of brackets that
match inside no other such pair, and no more.  They stand in the text one behind the
other, each is known by what stands strictly inside and by how many of the same content
stand before, and no inside breaks a quotation. -/
theorem ofCells_lists_outermost_matches [Scalar R] {settings : Settings R} {config : Config R}
    (hconfig : settings.config = .ok config) (gs : List (Glyph R)) :
    let cs := Cell.number gs
    let regions := ofCells config.symbols cs
    (∀ p, p ∈ regions.map (fun r => (r.left, r.right)) ↔
      Matched config.symbols cs p ∧ ∀ q, Matched config.symbols cs q → ¬ Encloses q p) ∧
    (∀ r ∈ regions, r.left < r.right) ∧
    regions.Pairwise (fun r r' => r.right < r'.left) ∧
    (∀ k r, regions[k]? = some r → r.key.content = Cell.text (r.interior.cells cs) ∧
      r.key.occurrence = (regions.take k).countP (·.key.content = r.key.content)) ∧
    ∀ r ∈ regions, r.interior.start ≤ r.interior.stop ∧ r.interior.stop ≤ gs.length ∧
      Even ((Cell.text (r.interior.cells cs)).count (config.symbols .quote)) := by
  intro cs regions
  have hne : config.symbols .loopOpen ≠ config.symbols .loopClose :=
    Settings.symbol_ne hconfig (by decide) (by decide) (by decide)
  have hinc := Cell.increasing_positions_number gs
  refine ⟨fun p => ?_, fun _ => left_lt_right hinc, pairwise_ofCells hinc, ?_, ?_⟩
  · rw [map_places_ofCells, outermost, List.mem_filter, mem_pairs_iff_matched hne]
    simp [mem_pairs_iff_matched hne, cs]
  · exact fun k r hr => ⟨content_eq (List.mem_of_getElem? hr), occurrence_eq_countP hr⟩
  · intro r hr
    have hlt := left_lt_right hinc hr
    obtain ⟨hopen, hclose⟩ := brackets_of_mem_ofCells hr
    have hstop := hclose.lt_length
    rw [Cell.length_number] at hstop
    exact ⟨hlt, Nat.le_of_lt hstop,
      Extent.even_cells hlt hopen.unmuted_succ hclose.unmuted⟩

/-- Brackets without a partner, one of them quoted, leave three regions. -/
theorem ofCells_lists_outermost_matches_among_strays :
    let settings : Settings Rat := {}
    let glyphs := (Paragraph.plain "][a \"]\" [b]][c[d][d]\"[".toList).glyphs (12 : Rat)
    let cs := Cell.number glyphs
    let regions := ofCells settings.fill.symbols cs
    settings.config = .ok settings.fill ∧
      regions = [⟨⟨"a \"]\" [b]".toList, 0⟩, 1, 11⟩, ⟨⟨['d'], 0⟩, 14, 16⟩,
        ⟨⟨['d'], 1⟩, 17, 19⟩] ∧
      (∀ p, p ∈ regions.map (fun r => (r.left, r.right)) ↔
        Matched settings.fill.symbols cs p ∧
          ∀ q, Matched settings.fill.symbols cs q → ¬ Encloses q p) ∧
      ∀ r ∈ regions, Even ((Cell.text (r.interior.cells cs)).count '"') := by
  intro settings glyphs cs regions
  have hconfig : settings.config = .ok settings.fill := Settings.config_empty_exact
  obtain ⟨hmatches, -, -, -, hinside⟩ := ofCells_lists_outermost_matches hconfig glyphs
  exact ⟨hconfig, by decide +kernel, hmatches, fun r hr => (hinside r hr).2.2⟩

end Region
end ProseScore
