import ProseScore.Proofs.Region.Brackets
import ProseScore.Proofs.Region.Keys

/-!
# Brackets without a partner

A loop bracket that the scan pairs with no other is inert.  What stands before it and
what stands behind it are matched apart, as they are where it is left out, so it is
inside no region and no region begins or ends elsewhere for it.
-/

namespace ProseScore.Region

variable {R : Type} {symbols : Symbols}

/-- A loop bracket outside quotes that is part of no pair of the scan. -/
structure Unmatched (symbols : Symbols) (gs : List (Glyph R)) (i : Nat) : Prop where
  bracket : BracketAt symbols .loopOpen (Cell.number gs) i ∨
    BracketAt symbols .loopClose (Cell.number gs) i
  alone : ∀ p ∈ pairs symbols false [] (Cell.number gs), p.1 ≠ i ∧ p.2 ≠ i

section

variable {u v : List (Glyph R)} {g : Glyph R}

theorem Unmatched.exists_bracket (h : Unmatched symbols (u ++ g :: v) u.length) :
    ∃ b : Bracket, b.position = u.length ∧ Even ((u.map Glyph.char).count (symbols .quote)) ∧
      Bracket.ofText symbols false 0 ((u ++ g :: v).map Glyph.char) =
        Bracket.ofText symbols false 0 (u.map Glyph.char) ++
          b :: Bracket.ofText symbols false (u.length + 1) (v.map Glyph.char) := by
  have hcell : (Cell.number (u ++ g :: v))[u.length]? =
      some ⟨g, u.length, u.countP fun g => isLetter g.char⟩ := by
    rw [Cell.getElem?_number]
    simp
  have htext : Cell.text ((Cell.number (u ++ g :: v)).take u.length) = u.map Glyph.char := by
    rw [Cell.text, List.map_take, ← Cell.text, Cell.text_number, ← List.map_take,
      List.take_left]
  have hunmuted : Even ((u.map Glyph.char).count (symbols .quote)) := by
    rw [← htext]
    exact h.bracket.elim BracketAt.unmuted BracketAt.unmuted
  have hchar : (g.char = symbols .loopOpen ∨ g.char = symbols .loopClose) ∧
      g.char ≠ symbols .quote := by
    rcases h.bracket with h | h
    · obtain ⟨-, hchar, hq⟩ := (bracketAt_iff hcell).mp h
      exact ⟨Or.inl hchar, hq⟩
    · obtain ⟨-, hchar, hq⟩ := (bracketAt_iff hcell).mp h
      exact ⟨Or.inr hchar, hq⟩
  rw [List.map_append, List.map_cons, Bracket.ofText_append_of_even hunmuted, List.length_map,
    Nat.zero_add, Bracket.ofText, if_neg hchar.2, if_neg Bool.false_ne_true]
  by_cases hopen : g.char = symbols .loopOpen
  · exact ⟨.left u.length, rfl, hunmuted, by rw [if_pos hopen]⟩
  · have hclose := hchar.1.resolve_left hopen
    exact ⟨.right u.length, rfl, hunmuted, by rw [if_neg hopen, if_pos hclose]⟩

/-- With and without the bracket the scan pairs what stands before it and what stands
behind it apart. -/
theorem Unmatched.pairs_split (h : Unmatched symbols (u ++ g :: v) u.length) :
    let before := Bracket.ofText symbols false 0 (u.map Glyph.char)
    let behind := Bracket.ofText symbols false (u.length + 1) (v.map Glyph.char)
    pairs symbols false [] (Cell.number (u ++ g :: v)) =
      Bracket.pairs [] before ++ Bracket.pairs [] behind ∧
    (pairs symbols false [] (Cell.number (u ++ v))).map
        (Prod.map (makeRoom u.length 1) (makeRoom u.length 1)) =
      Bracket.pairs [] before ++ Bracket.pairs [] behind := by
  intro before behind
  obtain ⟨b, hposition, heven, hbrackets⟩ := h.exists_bracket
  have halone : ∀ p ∈ Bracket.pairs [] (before ++ b :: behind),
      p.1 ≠ b.position ∧ p.2 ≠ b.position := by
    rw [hposition, ← hbrackets, ← pairs_number]
    exact h.alone
  obtain ⟨hwith, hwithout⟩ := Bracket.pairs_append_cons_of_unpaired halone
  have hroom : (Bracket.ofText symbols false 0 ((u ++ v).map Glyph.char)).map
      (Bracket.move (makeRoom u.length 1)) = before ++ behind := by
    rw [List.map_append, Bracket.ofText_append_of_even heven, List.map_append,
      Bracket.map_makeRoom_ofText_of_le (by simp), Bracket.map_makeRoom_ofText (by simp),
      List.length_map, Nat.zero_add]
  constructor
  · rw [pairs_number, hbrackets, hwith]
  · rw [pairs_number, ← Bracket.pairs_map_move, hroom, List.map_nil, hwithout]

theorem Unmatched.apart (h : Unmatched symbols (u ++ g :: v) u.length) {p : Nat × Nat}
    (hp : p ∈ pairs symbols false [] (Cell.number (u ++ v))) :
    p.2 < u.length ∨ u.length ≤ p.1 := by
  have hmoved := List.mem_map_of_mem (f := Prod.map (makeRoom u.length 1) (makeRoom u.length 1)) hp
  rw [h.pairs_split.2] at hmoved
  rcases List.mem_append.mp hmoved with hbefore | hbehind
  · have hright := (Bracket.position_of_mem_ofText (Bracket.mem_of_mem_pairs_nil hbefore).2).2
    simp only [Prod.map_snd, Bracket.position, List.length_map, Nat.zero_add, makeRoom] at hright
    split_ifs at hright <;> omega
  · have hleft := (Bracket.position_of_mem_ofText (Bracket.mem_of_mem_pairs_nil hbehind).1).1
    simp only [Prod.map_fst, Bracket.position, makeRoom] at hleft
    split_ifs at hleft <;> omega

theorem Unmatched.text_cells_eq (h : Unmatched symbols (u ++ g :: v) u.length) {p : Nat × Nat}
    (hp : p ∈ pairs symbols false [] (Cell.number (u ++ v))) :
    Cell.text (Extent.cells ⟨makeRoom u.length 1 p.1 + 1, makeRoom u.length 1 p.2⟩
        (Cell.number (u ++ g :: v))) =
      Cell.text (Extent.cells ⟨p.1 + 1, p.2⟩ (Cell.number (u ++ v))) := by
  have hlt : p.1 < p.2 :=
    (bounds_of_mem_pairs (Stacked.of_nil (Cell.increasing_positions_number _)) hp).2.2
  simp only [Extent.text_cells_number, List.map_append, List.map_cons]
  rcases h.apart hp with hbefore | hbehind
  · -- Both texts begin with `u`, and so does what the pair has inside.
    have hstart : p.1 + 1 ≤ (u.map Glyph.char).length := by
      rw [List.length_map]
      omega
    have hstop : p.2 - (p.1 + 1) ≤ ((u.map Glyph.char).drop (p.1 + 1)).length := by
      rw [List.length_drop, List.length_map]
      omega
    rw [makeRoom_of_lt (Nat.lt_trans hlt hbefore), makeRoom_of_lt hbefore,
      List.drop_append_of_le_length hstart, List.drop_append_of_le_length hstart,
      List.take_append_of_le_length hstop, List.take_append_of_le_length hstop]
  · -- Both texts end with `v`, which has all that the pair has inside.
    obtain ⟨k, hk⟩ := Nat.exists_eq_add_of_le hbehind
    have hu : (u.map Glyph.char).length = u.length := List.length_map _
    have hwith : (u.map Glyph.char ++ g.char :: v.map Glyph.char).drop (p.1 + 1 + 1) =
        (v.map Glyph.char).drop (k + 1) := by
      rw [hk, Nat.add_assoc, Nat.add_assoc, ← hu, List.drop_length_add_append]
      rfl
    have hwithout : (u.map Glyph.char ++ v.map Glyph.char).drop (p.1 + 1) =
        (v.map Glyph.char).drop (k + 1) := by
      rw [hk, Nat.add_assoc, ← hu, List.drop_length_add_append]
    rw [makeRoom_of_le hbehind, makeRoom_of_le (Nat.le_of_lt (Nat.lt_of_le_of_lt hbehind hlt)),
      hwith, hwithout, Nat.add_sub_add_right]

theorem Unmatched.ofCells_eq (h : Unmatched symbols (u ++ g :: v) u.length) :
    ofCells symbols (Cell.number (u ++ g :: v)) =
      (ofCells symbols (Cell.number (u ++ v))).map (move (makeRoom u.length 1)) := by
  have hpairs := h.pairs_split.1.trans h.pairs_split.2.symm
  rw [ofCells, hpairs, outermost_map (strictMono_makeRoom _ _), ofCells, ← keyed_map_move,
    List.map_map, List.map_map]
  congr 1
  apply List.map_congr_left
  intro p hp
  exact congrArg (Prod.mk _ <| Prod.mk _ ·) (h.text_cells_eq (List.mem_of_mem_filter hp))

end

/-- The regions of a text are those without the bracket, moved on behind it. -/
theorem Unmatched.ofCells_eq_map_eraseIdx {gs : List (Glyph R)} {i : Nat}
    (h : Unmatched symbols gs i) :
    ofCells symbols (Cell.number gs) =
      (ofCells symbols (Cell.number (gs.eraseIdx i))).map (move (makeRoom i 1)) := by
  have hi : i < gs.length := by
    rw [← Cell.length_number gs]
    exact h.bracket.elim BracketAt.lt_length BracketAt.lt_length
  have hsplit : gs.take i ++ gs[i] :: gs.drop (i + 1) = gs := by
    rw [← List.drop_eq_getElem_cons hi, List.take_append_drop]
  have hlength : (gs.take i).length = i := List.length_take_of_le (Nat.le_of_lt hi)
  have hbracket : Unmatched symbols (gs.take i ++ gs[i] :: gs.drop (i + 1)) (gs.take i).length := by
    rwa [hsplit, hlength]
  have hregions := hbracket.ofCells_eq
  rwa [hsplit, hlength, ← List.eraseIdx_eq_take_drop_succ] at hregions

/-- **Brackets without a partner are inert.** Where one is taken out of a text, the
regions keep their keys and their order, and those behind it stand one place nearer.
Where one is put in, they keep them, too, and stand one place further on. -/
theorem unmatched_brackets_inert (symbols : Symbols) (gs : List (Glyph R)) (i : Nat) :
    (Unmatched symbols gs i →
      ofCells symbols (Cell.number (gs.eraseIdx i)) =
        (ofCells symbols (Cell.number gs)).map (move fun j => if j < i then j else j - 1)) ∧
    ∀ g, Unmatched symbols (gs.insertIdx i g) i →
      ofCells symbols (Cell.number (gs.insertIdx i g)) =
        (ofCells symbols (Cell.number gs)).map (move fun j => if j < i then j else j + 1) := by
  constructor
  · intro h
    have hback (j : Nat) : (fun j => if j < i then j else j - 1) (makeRoom i 1 j) = j := by
      simp only [makeRoom]
      split_ifs <;> omega
    rw [h.ofCells_eq_map_eraseIdx, List.map_map]
    symm
    apply List.map_id''
    intro r
    rw [Function.comp_apply, move, move]
    simp only [hback]
  · intro g h
    have hregions := h.ofCells_eq_map_eraseIdx
    rw [List.eraseIdx_insertIdx_self] at hregions
    exact hregions

/-- Between two regions a left bracket is taken out, and a right one is put in. -/
theorem unmatched_brackets_inert_between_regions :
    let glyphs : List (Glyph Nat) := (Paragraph.plain "[a][x[b]".toList).glyphs 12
    let stray : Glyph Nat := ⟨']', .plain 12⟩
    let regions := ofCells .standard (Cell.number glyphs)
    Unmatched .standard glyphs 3 ∧ Unmatched .standard (glyphs.insertIdx 3 stray) 3 ∧
      regions = [⟨⟨['a'], 0⟩, 0, 2⟩, ⟨⟨['b'], 0⟩, 5, 7⟩] ∧
      ofCells .standard (Cell.number (glyphs.eraseIdx 3)) =
        regions.map (move fun j => if j < 3 then j else j - 1) ∧
      ofCells .standard (Cell.number (glyphs.insertIdx 3 stray)) =
        regions.map (move fun j => if j < 3 then j else j + 1) := by
  intro glyphs stray regions
  have herased : Unmatched .standard glyphs 3 := ⟨by decide +kernel, by decide +kernel⟩
  have hinserted : Unmatched .standard (glyphs.insertIdx 3 stray) 3 :=
    ⟨by decide +kernel, by decide +kernel⟩
  have hinert := unmatched_brackets_inert .standard glyphs 3
  exact ⟨herased, hinserted, by decide +kernel, hinert.1 herased, hinert.2 stray hinserted⟩

end ProseScore.Region
