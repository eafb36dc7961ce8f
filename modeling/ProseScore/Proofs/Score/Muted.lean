import ProseScore.Proofs.Score.Sharing
import ProseScore.Proofs.Token.Relabel
import ProseScore.Proofs.Unique
import ProseScore.Scalar.Exact

/-!
# Muted text

Text in a quotation is inert.  The scan sees no bracket in it and the reader no mark,
so it makes room in front of what stands behind it and does no more: regions stand
further on, and letters have higher ordinals.
-/

namespace ProseScore

variable {R : Type} {symbols : Symbols} {config : Config R}

/-- The number of letters of glyphs, muted or not. -/
def letterCount (gs : List (Glyph R)) : Nat :=
  gs.countP fun g => isLetter g.char

/-- The glyphs `m` have no quote and stand directly behind the quote `q`, which opens a
quotation behind `u`. -/
structure Quoted (symbols : Symbols) (u : List (Glyph R)) (q : Glyph R) (m : List (Glyph R)) :
    Prop where
  opening : q.char = symbols .quote
  even_before : Even ((u.map Glyph.char).count (symbols .quote))
  quote_notMem : symbols .quote ∉ m.map Glyph.char

namespace Quoted

variable {u m : List (Glyph R)} {q : Glyph R}

/-! ## Brackets -/

theorem ofText_eq (h : Quoted symbols u q m) (v : List (Glyph R)) :
    Bracket.ofText symbols false 0 ((u ++ q :: (m ++ v)).map Glyph.char) =
      (Bracket.ofText symbols false 0 ((u ++ q :: v).map Glyph.char)).map
        (Bracket.move (makeRoom (u.length + 1) m.length)) := by
  have hcount : (m.map Glyph.char).count (symbols .quote) = 0 :=
    List.count_eq_zero.mpr h.quote_notMem
  rw [List.map_append, List.map_append, Bracket.ofText_append_of_even h.even_before,
    Bracket.ofText_append_of_even h.even_before, List.map_cons, List.map_cons, Bracket.ofText,
    Bracket.ofText, if_pos h.opening, if_pos h.opening, List.map_append, List.map_append,
    Bracket.map_makeRoom_ofText_of_le (by simp), Bracket.ofText_append, Bool.not_false,
    Bracket.ofText_muted h.quote_notMem, hcount, Bracket.map_makeRoom_ofText (by simp)]
  simp

theorem map_places_ofCells (h : Quoted symbols u q m) (v : List (Glyph R)) :
    (Region.ofCells symbols (Cell.number (u ++ q :: (m ++ v)))).map
        (fun r => (r.left, r.right)) =
      (Region.ofCells symbols (Cell.number (u ++ q :: v))).map fun r =>
        (makeRoom (u.length + 1) m.length r.left, makeRoom (u.length + 1) m.length r.right) := by
  have hpairs := Bracket.pairs_map_move (makeRoom (u.length + 1) m.length) []
    (Bracket.ofText symbols false 0 ((u ++ q :: v).map Glyph.char))
  rw [← h.ofText_eq, List.map_nil, ← Region.pairs_number, ← Region.pairs_number] at hpairs
  rw [Region.map_places_ofCells, hpairs, Region.outermost_map (strictMono_makeRoom _ _),
    ← Region.map_places_ofCells, List.map_map]
  rfl

/-! ## Marks -/

theorem ofCells_before {gs : List (Glyph R)} {start : Nat} (hle : letterCount gs ≤ start)
    (k : Nat) (muted : Bool) :
    Mark.ofCells symbols muted ((Cell.number gs).map some) =
      (Mark.ofCells symbols muted ((Cell.number gs).map some)).map
        (Relabelling.ordinals (makeRoom start k)).mark := by
  refine Relabelling.ofCells_of_forall₂ (Relabelling.forall₂_numberFrom 0 0 fun i hi => ?_) _ _
  rw [Nat.zero_add, makeRoom_of_lt (Nat.lt_of_lt_of_le hi hle)]

/-- The reader comes to what stands behind the quote muted. -/
theorem ofCells_number (h : Quoted symbols u q m) (w : List (Glyph R)) :
    Mark.ofCells symbols false ((Cell.number (u ++ q :: w)).map some) =
      Mark.ofCells symbols false ((Cell.number u).map some) ++
        .gap :: Mark.ofCells symbols true ((Cell.numberFrom (u.length + 1)
          (letterCount u + letterCount [q]) w).map some) := by
  have heven : Mark.mutedBehind symbols false ((Cell.number u).map some) = false := by
    rw [Mark.mutedBehind_eq_self_iff, Cell.text_number]
    exact h.even_before
  have hnumber : Cell.number (u ++ q :: w) = Cell.number u ++
      ⟨q, u.length, letterCount u⟩ ::
        Cell.numberFrom (u.length + 1) (letterCount u + letterCount [q]) w := by
    rw [Cell.number, Cell.numberFrom_append, Cell.numberFrom, Nat.zero_add, Nat.zero_add]
    simp only [letterCount, List.countP_singleton]
    split_ifs <;> rfl
  rw [hnumber, List.map_append, Mark.ofCells_append, heven, List.map_cons, Mark.ofCells,
    if_pos h.opening]
  rfl

/-- Text that makes room in a quotation gives the letters behind it higher ordinals. -/
theorem ofCells_number_append (h : Quoted symbols u q m) (w : List (Glyph R)) :
    Mark.ofCells symbols false ((Cell.number (u ++ q :: (m ++ w))).map some) =
      (Mark.ofCells symbols false ((Cell.number (u ++ q :: w)).map some)).map
        (Relabelling.ordinals (makeRoom (letterCount u) (letterCount m))).mark := by
  have hquotes : symbols .quote ∉ Cell.text
      (Cell.numberFrom (u.length + 1) (letterCount u + letterCount [q]) m) := by
    rw [Cell.text_numberFrom]
    exact h.quote_notMem
  have hmuted : Mark.mutedBehind symbols true
      ((Cell.numberFrom (u.length + 1) (letterCount u + letterCount [q]) m).map some) = true := by
    rw [Mark.mutedBehind_eq_self_iff, List.count_eq_zero.mpr hquotes]
    exact Even.zero
  have hbehind : List.Forall₂
      (Relabelling.ordinals (makeRoom (letterCount u) (letterCount m))).Relates
      (Cell.numberFrom (u.length + 1) (letterCount u + letterCount [q]) w)
      (Cell.numberFrom (u.length + 1 + m.length)
        (letterCount u + letterCount [q] + letterCount m) w) := by
    apply Relabelling.forall₂_numberFrom
    intro i _
    rw [makeRoom_of_le (by omega)]
    omega
  rw [h.ofCells_number, h.ofCells_number, Cell.numberFrom_append, List.map_append,
    Mark.ofCells_append, Mark.ofCells_muted hquotes, hmuted, List.nil_append, List.map_append,
    List.map_cons]
  exact congrArg₂ (· ++ ·) (ofCells_before (Nat.le_refl (letterCount u)) (letterCount m) false)
    (congrArg (Mark.gap :: ·) (Relabelling.ofCells_of_forall₂ hbehind symbols true))

theorem take_makeRoom (u v m : List (Glyph R)) (q : Glyph R) (i : Nat) :
    (i ≤ u.length ∧ (u ++ q :: v).take i = u.take i ∧
      (u ++ q :: (m ++ v)).take (makeRoom (u.length + 1) m.length i) = u.take i) ∨
    ∃ w, (u ++ q :: v).take i = u ++ q :: w ∧
      (u ++ q :: (m ++ v)).take (makeRoom (u.length + 1) m.length i) = u ++ q :: (m ++ w) := by
  rcases Nat.lt_or_ge i (u.length + 1) with hlt | hge
  · have hle : i ≤ u.length := Nat.le_of_lt_succ hlt
    rw [makeRoom_of_lt hlt, List.take_append_of_le_length hle, List.take_append_of_le_length hle]
    exact Or.inl ⟨hle, rfl, rfl⟩
  · obtain ⟨k, rfl⟩ := Nat.exists_eq_add_of_le hge
    have hposition : u.length + 1 + k = u.length + (k + 1) := by omega
    have hposition' : u.length + 1 + k + m.length = u.length + (m.length + k + 1) := by omega
    refine Or.inr ⟨v.take k, ?_, ?_⟩
    · rw [hposition, List.take_length_add_append, List.take_succ_cons]
    · rw [makeRoom_of_le hge, hposition', List.take_length_add_append, List.take_succ_cons,
        List.take_length_add_append]

theorem ofCells_take (h : Quoted symbols u q m) (v : List (Glyph R)) (i : Nat) :
    Mark.ofCells symbols false (((Cell.number (u ++ q :: (m ++ v))).take
        (makeRoom (u.length + 1) m.length i)).map some) =
      (Mark.ofCells symbols false (((Cell.number (u ++ q :: v)).take i).map some)).map
        (Relabelling.ordinals (makeRoom (letterCount u) (letterCount m))).mark := by
  rw [Cell.take_number, Cell.take_number]
  rcases take_makeRoom u v m q i with ⟨-, hwithout, hwith⟩ | ⟨w, hwithout, hwith⟩
  · have hle : letterCount (u.take i) ≤ letterCount u := (List.take_sublist i u).countP_le
    rw [hwithout, hwith]
    exact ofCells_before hle (letterCount m) false
  · rw [hwithout, hwith]
    exact h.ofCells_number_append w

theorem unmuted_makeRoom_iff (h : Quoted symbols u q m) (v : List (Glyph R)) (i : Nat) :
    Unmuted symbols (Cell.number (u ++ q :: (m ++ v))) (makeRoom (u.length + 1) m.length i) ↔
      Unmuted symbols (Cell.number (u ++ q :: v)) i := by
  have hcount : (m.map Glyph.char).count (symbols .quote) = 0 :=
    List.count_eq_zero.mpr h.quote_notMem
  rw [Unmuted, Unmuted, Cell.take_number, Cell.take_number, Cell.text_number, Cell.text_number]
  rcases take_makeRoom u v m q i with ⟨-, hwithout, hwith⟩ | ⟨w, hwithout, hwith⟩
  · rw [hwithout, hwith]
  · rw [hwithout, hwith]
    simp only [List.map_append, List.map_cons, List.count_append, List.count_cons, hcount,
      Nat.zero_add]

/-! ## Tokens -/

theorem ofCells_take_of_unmuted {cs : List (Cell R)} {start stop : Nat}
    (hstart : Unmuted symbols cs start) (hle : start ≤ stop) :
    Mark.ofCells symbols false ((cs.take stop).map some) =
      Mark.ofCells symbols false ((cs.take start).map some) ++
        Mark.ofCells symbols false ((Extent.cells ⟨start, stop⟩ cs).map some) := by
  have hmuted := (Mark.mutedBehind_eq_self_iff false (cs.take start)).mpr hstart
  obtain ⟨k, rfl⟩ := Nat.exists_eq_add_of_le hle
  rw [Extent.cells, Nat.add_sub_cancel_left, List.take_add, List.map_append,
    Mark.ofCells_append, hmuted]

theorem ofCells_cells (h : Quoted config.symbols u q m) (v : List (Glyph R)) {e : Extent}
    (hstart : Unmuted config.symbols (Cell.number (u ++ q :: v)) e.start)
    (hle : e.start ≤ e.stop) :
    Token.ofCells config [] (Extent.cells ⟨makeRoom (u.length + 1) m.length e.start,
        makeRoom (u.length + 1) m.length e.stop⟩ (Cell.number (u ++ q :: (m ++ v)))) =
      (Token.ofCells config [] (e.cells (Cell.number (u ++ q :: v)))).map
        (Relabelling.ordinals (makeRoom (letterCount u) (letterCount m))).token := by
  -- The marks in an extent are what those before its end have and those before its start
  -- have not.
  obtain ⟨start, stop⟩ := e
  have hstart' := (h.unmuted_makeRoom_iff v start).mpr hstart
  have hle' : makeRoom (u.length + 1) m.length start ≤ makeRoom (u.length + 1) m.length stop :=
    (strictMono_makeRoom _ _).monotone hle
  have hmarks := h.ofCells_take v stop
  rw [ofCells_take_of_unmuted hstart hle, ofCells_take_of_unmuted hstart' hle',
    h.ofCells_take v start, List.map_append] at hmarks
  rw [Token.ofCells_nil, Token.ofCells_nil, List.append_cancel_left hmarks,
    Relabelling.ofMarks_map_mark]

/-! ## Scores -/

theorem forall₂_ofCells (h : Quoted symbols u q m) (v : List (Glyph R)) :
    List.Forall₂ (fun r r' => r'.left = makeRoom (u.length + 1) m.length r.left ∧
        r'.right = makeRoom (u.length + 1) m.length r.right)
      (Region.ofCells symbols (Cell.number (u ++ q :: v)))
      (Region.ofCells symbols (Cell.number (u ++ q :: (m ++ v)))) :=
  forall₂_of_map_eq (h.map_places_ofCells v).symm fun _ _ _ _ hplaces =>
    ⟨(Prod.ext_iff.mp hplaces).1.symm, (Prod.ext_iff.mp hplaces).2.symm⟩

/-- In both texts the regions are those of the text that has nothing behind the quote. -/
theorem forall₂_shifts {m' : List (Glyph R)} (h : Quoted symbols u q m)
    (h' : Quoted symbols u q m') (v : List (Glyph R)) :
    List.Forall₂ (fun r r' => Shifts (u.length + 1) m.length m'.length r.left r'.left ∧
        Shifts (u.length + 1) m.length m'.length r.right r'.right)
      (Region.ofCells symbols (Cell.number (u ++ q :: (m ++ v))))
      (Region.ofCells symbols (Cell.number (u ++ q :: (m' ++ v)))) := by
  have hplaces : List.Forall₂ (fun p p' : Nat × Nat =>
      Shifts (u.length + 1) m.length m'.length p.1 p'.1 ∧
        Shifts (u.length + 1) m.length m'.length p.2 p'.2)
      ((Region.ofCells symbols (Cell.number (u ++ q :: (m ++ v)))).map fun r => (r.left, r.right))
      ((Region.ofCells symbols (Cell.number (u ++ q :: (m' ++ v)))).map
        fun r => (r.left, r.right)) := by
    rw [h.map_places_ofCells, h'.map_places_ofCells, List.forall₂_map_left_iff,
      List.forall₂_map_right_iff, List.forall₂_same]
    exact fun r _ => ⟨shifts_makeRoom _ _ _ _, shifts_makeRoom _ _ _ _⟩
  rwa [List.forall₂_map_left_iff, List.forall₂_map_right_iff] at hplaces

/-- Ordinals that leave room for `k` letters are turned into ones that leave it for `k'`. -/
theorem map_token_makeRoom (start k k' : Nat) (ts : List (Token R)) :
    (ts.map (Relabelling.ordinals (makeRoom start k)).token).map
        (Relabelling.ordinals fun i => if i < start then i else i + k' - k).token =
      ts.map (Relabelling.ordinals (makeRoom start k')).token := by
  have hindex : (fun i => if i < start then i else i + k' - k) ∘ makeRoom start k =
      makeRoom start k' := by
    funext i
    simp only [Function.comp_apply, makeRoom]
    split_ifs <;> omega
  rw [List.map_map]
  apply List.map_congr_left
  intro t _
  rw [Function.comp_apply, Relabelling.token_ordinals_token, hindex]

/-- A left bracket is not the quote, so the room is not made next to it. -/
theorem makeRoom_left_succ (h : Quoted symbols u q m) (v : List (Glyph R)) {r : Region}
    (hr : r ∈ Region.ofCells symbols (Cell.number (u ++ q :: v))) :
    makeRoom (u.length + 1) m.length (r.left + 1) =
      makeRoom (u.length + 1) m.length r.left + 1 := by
  have hne : r.left ≠ u.length := by
    intro heq
    obtain ⟨c, hc, -, hq⟩ := (Region.brackets_of_mem_ofCells hr).1.exists_cell
    rw [heq, Cell.getElem?_number] at hc
    simp only [List.getElem?_append_right, Nat.le_refl, Nat.sub_self, List.getElem?_cons_zero,
      Option.map_some, Option.some_inj] at hc
    exact hq (hc ▸ h.opening)
  rw [makeRoom, makeRoom]
  split_ifs <;> omega

theorem body_eq (h : Quoted config.symbols u q m) (v : List (Glyph R)) :
    (Score.ofCells config (Cell.number (u ++ q :: (m ++ v)))).body =
      (Score.ofCells config (Cell.number (u ++ q :: v))).body.map
        (Relabelling.ordinals (makeRoom (letterCount u) (letterCount m))).token := by
  have hlayout := Region.Layout.ofCells config.symbols (u ++ q :: v)
  have hright : ∀ r ∈ Region.ofCells config.symbols (Cell.number (u ++ q :: v)),
      r.right ≤ (u ++ q :: v).length := by
    intro r hr
    rw [← Cell.length_number (u ++ q :: v)]
    exact Nat.le_of_lt (Region.brackets_of_mem_ofCells hr).2.lt_length
  have hstart : makeRoom (u.length + 1) m.length 0 = 0 := makeRoom_of_lt (Nat.succ_pos _)
  have hstop : makeRoom (u.length + 1) m.length (u ++ q :: v).length =
      (u ++ q :: (m ++ v)).length := by
    rw [makeRoom_of_le (by simp)]
    simp only [List.length_append, List.length_cons]
    omega
  -- The gaps between the regions move with them, the first and the last to the ends.
  have hgaps := Region.gaps_of_forall₂ (h.forall₂_ofCells v)
    (fun _ hr => h.makeRoom_left_succ v hr) 0 (u ++ q :: v).length
  rw [hstart, hstop] at hgaps
  rw [Score.body_eq_gaps, Score.body_eq_gaps, hgaps, List.flatMap_map, List.map_flatMap]
  apply List.flatMap_congr
  intro e he
  obtain ⟨hunmuted, hle⟩ := hlayout.of_mem_gaps (Nat.zero_le _) hright he
  exact h.ofCells_cells v hunmuted hle

theorem loops_eq (h : Quoted config.symbols u q m) (v : List (Glyph R)) :
    (Score.ofCells config (Cell.number (u ++ q :: (m ++ v)))).loops.map Prod.snd =
      (Score.ofCells config (Cell.number (u ++ q :: v))).loops.map fun l =>
        l.2.map (Relabelling.ordinals (makeRoom (letterCount u) (letterCount m))).token := by
  have hinc := Cell.increasing_positions_number (u ++ q :: v)
  have hmoved : (Region.ofCells config.symbols (Cell.number (u ++ q :: (m ++ v)))).map
      Region.interior = (Region.ofCells config.symbols (Cell.number (u ++ q :: v))).map fun r =>
        ⟨makeRoom (u.length + 1) m.length r.interior.start,
          makeRoom (u.length + 1) m.length r.interior.stop⟩ := by
    have hplaces := congrArg (List.map fun p : Nat × Nat => (⟨p.1 + 1, p.2⟩ : Extent))
      (h.map_places_ofCells v)
    rw [List.map_map, List.map_map] at hplaces
    refine hplaces.trans (List.map_congr_left fun r hr => ?_)
    simp only [Function.comp_apply, Region.interior, h.makeRoom_left_succ v hr]
  have hread := congrArg (List.map fun e =>
    Token.ofCells config [] (e.cells (Cell.number (u ++ q :: (m ++ v))))) hmoved
  rw [List.map_map, List.map_map] at hread
  simp only [Score.ofCells, List.map_map]
  refine hread.trans (List.map_congr_left fun r hr => ?_)
  exact h.ofCells_cells v (Region.brackets_of_mem_ofCells hr).1.unmuted_succ
    (Region.left_lt_right hinc hr)

/-- No letter that is read has an ordinal of the muted stretch. -/
theorem index_lt_or_le (h : Quoted config.symbols u q m) {v : List (Glyph R)} {t : Token R}
    (ht : t ∈ (Score.ofCells config (Cell.number (u ++ q :: (m ++ v)))).body ∨
      ∃ ts ∈ (Score.ofCells config (Cell.number (u ++ q :: (m ++ v)))).loops.map Prod.snd, t ∈ ts)
    {l : Letter R} (hl : l ∈ t.letters) :
    l.index < letterCount u ∨ letterCount u + letterCount m ≤ l.index := by
  obtain ⟨t₀, rfl⟩ : ∃ t₀ : Token R,
      (Relabelling.ordinals (makeRoom (letterCount u) (letterCount m))).token t₀ = t := by
    rw [h.body_eq, h.loops_eq] at ht
    rcases ht with ht | ⟨ts, hts, ht⟩
    · obtain ⟨t₀, -, rfl⟩ := List.mem_map.mp ht
      exact ⟨t₀, rfl⟩
    · obtain ⟨l, -, rfl⟩ := List.mem_map.mp hts
      obtain ⟨t₀, -, rfl⟩ := List.mem_map.mp ht
      exact ⟨t₀, rfl⟩
  rw [Relabelling.letters_token] at hl
  obtain ⟨l₀, -, rfl⟩ := List.mem_map.mp hl
  exact (shifts_makeRoom (letterCount u) (letterCount m) 0 l₀.index).imp And.left And.left

end Quoted

/-- **Muted text is inert.** Whatever stands in a quotation, and whether it is closed or
not, there are as many regions, with their brackets where they were or as far behind the
quotation, and body and loops have the same tokens.  Only the ordinals of the letters
behind the quotation count those in it. -/
theorem Score.muted_text_inert [Scalar R] (config : Config R) {u m m' : List (Glyph R)}
    {q : Glyph R} (h : Quoted config.symbols u q m) (h' : Quoted config.symbols u q m')
    (v : List (Glyph R)) :
    let cs := Cell.number (u ++ q :: (m ++ v))
    let cs' := Cell.number (u ++ q :: (m' ++ v))
    let score := Score.ofCells config cs
    let score' := Score.ofCells config cs'
    let relabelling : Relabelling R := .ordinals fun i =>
      if i < letterCount u then i else i + letterCount m' - letterCount m
    List.Forall₂ (fun r r' => Shifts (u.length + 1) m.length m'.length r.left r'.left ∧
        Shifts (u.length + 1) m.length m'.length r.right r'.right)
      (Region.ofCells config.symbols cs) (Region.ofCells config.symbols cs') ∧
    score'.body = score.body.map relabelling.token ∧
    score'.loops.map Prod.snd = score.loops.map (fun l => l.2.map relabelling.token) ∧
    Token.total score'.body = Token.total score.body ∧
    score'.loops.map (fun l => Token.total l.2) = score.loops.map (fun l => Token.total l.2) ∧
    ∀ t, (t ∈ score.body ∨ ∃ ts ∈ score.loops.map Prod.snd, t ∈ ts) → ∀ l ∈ t.letters,
      l.index < letterCount u ∨ letterCount u + letterCount m ≤ l.index := by
  intro cs cs' score score' relabelling
  have hbody : score'.body = score.body.map relabelling.token := by
    rw [h.body_eq v, h'.body_eq v, Quoted.map_token_makeRoom]
  have hloops : score'.loops.map Prod.snd =
      score.loops.map fun l => l.2.map relabelling.token := by
    have hmapped := congrArg (List.map (List.map relabelling.token)) (h.loops_eq v)
    rw [List.map_map, List.map_map] at hmapped
    refine (h'.loops_eq v).trans (Eq.trans ?_ hmapped.symm)
    apply List.map_congr_left
    intro l _
    rw [Function.comp_apply, Quoted.map_token_makeRoom]
  refine ⟨h.forall₂_shifts h' v, hbody, hloops, ?_, ?_, fun t ht l hl => h.index_lt_or_le ht hl⟩
  · rw [hbody, Token.total_map_token]
  · have htotals := congrArg (List.map Token.total) hloops
    rw [List.map_map, List.map_map] at htotals
    exact htotals.trans (List.map_congr_left fun l _ => Token.total_map_token relabelling l.2)

/-- A right bracket and one letter, or a left bracket and two, in a quotation in a loop. -/
theorem Score.muted_text_inert_inside_loop :
    let config : Config Rat := .standard
    let u := (Paragraph.plain "a [b ".toList).glyphs (12 : Rat)
    let q : Glyph Rat := ⟨'"', .plain 12⟩
    let m := (Paragraph.plain "x]".toList).glyphs (12 : Rat)
    let m' := (Paragraph.plain "[yy.".toList).glyphs (12 : Rat)
    let v := (Paragraph.plain "\" c] d".toList).glyphs (12 : Rat)
    let score := Score.ofCells config (Cell.number (u ++ q :: (m ++ v)))
    let score' := Score.ofCells config (Cell.number (u ++ q :: (m' ++ v)))
    let relabelling : Relabelling Rat := .ordinals fun i => if i < 2 then i else i + 2 - 1
    Quoted config.symbols u q m ∧ Quoted config.symbols u q m' ∧
      score'.body = score.body.map relabelling.token ∧
      score'.loops.map Prod.snd = score.loops.map (fun l => l.2.map relabelling.token) ∧
      score.loops.map (fun l => (l.2.flatMap Token.letters).map Letter.index) = [[1, 3]] ∧
      score'.loops.map (fun l => (l.2.flatMap Token.letters).map Letter.index) = [[1, 4]] := by
  intro config u q m m' v score score' relabelling
  have h : Quoted config.symbols u q m := ⟨by decide +kernel, by decide +kernel, by decide +kernel⟩
  have h' : Quoted config.symbols u q m' :=
    ⟨by decide +kernel, by decide +kernel, by decide +kernel⟩
  obtain ⟨-, hbody, hloops, -⟩ := Score.muted_text_inert config h h' v
  exact ⟨h, h', hbody, hloops, by decide +kernel, by decide +kernel⟩

end ProseScore
