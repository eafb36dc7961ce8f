import ProseScore.Proofs.Token.Sounding
import ProseScore.Proofs.Token.Split
import ProseScore.Scalar.Exact
import ProseScore.Score

/-!
# How body and loops share a paragraph

The regions of a paragraph cut it into gaps and insides by turns.  The body is
what is read in the gaps and each loop is what is read in its inside, and read by
turns they are the tokens of the whole paragraph.
-/

namespace ProseScore

variable {R : Type}

theorem BracketAt.isBracket {symbols : Symbols} {role : Role} {cs : List (Cell R)} {i : Nat}
    (h : BracketAt symbols role cs i) (hrole : role = .loopOpen ∨ role = .loopClose) :
    ∃ c, cs[i]? = some c ∧ c.IsBracket symbols := by
  obtain ⟨c, hc, hchar, hq⟩ := h.exists_cell
  refine ⟨c, hc, hq, ?_⟩
  rcases hrole with rfl | rfl
  · exact Or.inl hchar
  · exact Or.inr hchar

namespace Token

variable {config : Config R} {cs : List (Cell R)} {a i : Nat}

/-- A gap is read up to and with the left bracket at its end. -/
theorem ofCells_drop_of_open (excluded : List Extent)
    (h : BracketAt config.symbols .loopOpen cs i) (ha : Unmuted config.symbols cs a)
    (hle : a ≤ i) (hclear : ∀ d ∈ Extent.cells ⟨a, i + 1⟩ cs, Extent.Clear excluded d) :
    ofCells config excluded (cs.drop a) =
      ofCells config [] (Extent.cells ⟨a, i + 1⟩ cs) ++
        ofCells config excluded (cs.drop (i + 1)) := by
  obtain ⟨c, hc, hbracket⟩ := h.isBracket (Or.inl rfl)
  have hsucc := Extent.cells_succ hle hc
  have heven := Extent.even_cells (Nat.le_succ_of_le hle) ha h.unmuted_succ
  rw [← Extent.cells_append_drop (Nat.le_succ_of_le hle) cs]
  rw [hsucc] at heven hclear ⊢
  exact ofCells_concat_append hbracket heven hclear

/-- An inside is read up to the right bracket behind it. -/
theorem ofCells_drop_of_close (h : BracketAt config.symbols .loopClose cs i)
    (ha : Unmuted config.symbols cs a) (hle : a ≤ i) :
    ofCells config [] (cs.drop a) =
      ofCells config [] (Extent.cells ⟨a, i⟩ cs) ++ ofCells config [] (cs.drop i) := by
  obtain ⟨c, hc, hbracket⟩ := h.isBracket (Or.inr rfl)
  have heven := Extent.even_cells hle ha h.unmuted
  obtain ⟨hi, rfl⟩ := List.getElem?_eq_some_iff.mp hc
  rw [← Extent.cells_append_drop hle cs, List.drop_eq_getElem_cons hi]
  exact ofCells_append_cons hbracket heven

end Token

namespace Region

/-- The stretches between regions: from `start` up to and with the first left
bracket, from each right bracket up to and with the next left one, and from the
last right bracket up to `stop`. -/
def gaps (start stop : Nat) : List Region → List Extent
  | [] => [⟨start, stop⟩]
  | r :: rs => ⟨start, r.left + 1⟩ :: gaps r.right stop rs

/-- Gaps and insides by turns. -/
def stretches (start stop : Nat) : List Region → List Extent
  | [] => [⟨start, stop⟩]
  | r :: rs => ⟨start, r.left + 1⟩ :: r.interior :: stretches r.right stop rs

/-- Regions that stand one behind the other in the cells from `start` on, between
brackets that count. -/
structure Layout (symbols : Symbols) (cs : List (Cell R)) (start : Nat) (rs : List Region) :
    Prop where
  unmuted : Unmuted symbols cs start
  start_le : ∀ r ∈ rs, start ≤ r.left
  left_lt : ∀ r ∈ rs, r.left < r.right
  left_bracket : ∀ r ∈ rs, BracketAt symbols .loopOpen cs r.left
  right_bracket : ∀ r ∈ rs, BracketAt symbols .loopClose cs r.right
  apart : rs.Pairwise fun r r' => r.right < r'.left

namespace Layout

variable {symbols : Symbols} {cs : List (Cell R)} {start : Nat} {r : Region} {rs : List Region}

theorem tail (h : Layout symbols cs start (r :: rs)) : Layout symbols cs r.right rs where
  unmuted := (h.right_bracket r List.mem_cons_self).unmuted
  start_le := fun r' hr' => Nat.le_of_lt ((List.pairwise_cons.mp h.apart).1 r' hr')
  left_lt := fun r' hr' => h.left_lt r' (List.mem_cons_of_mem r hr')
  left_bracket := fun r' hr' => h.left_bracket r' (List.mem_cons_of_mem r hr')
  right_bracket := fun r' hr' => h.right_bracket r' (List.mem_cons_of_mem r hr')
  apart := (List.pairwise_cons.mp h.apart).2

theorem left_le (h : Layout symbols cs start (r :: rs)) : ∀ r' ∈ r :: rs, r.left ≤ r'.left := by
  intro r' hr'
  rcases List.mem_cons.mp hr' with rfl | hr'
  · exact Nat.le_refl _
  · have hlt := h.left_lt r List.mem_cons_self
    have hbehind := (List.pairwise_cons.mp h.apart).1 r' hr'
    omega

/-- Gaps begin where no quotation is open. -/
theorem of_mem_gaps (h : Layout symbols cs start rs) {stop : Nat} (hstart : start ≤ stop)
    (hstop : ∀ r ∈ rs, r.right ≤ stop) {e : Extent} (he : e ∈ gaps start stop rs) :
    Unmuted symbols cs e.start ∧ e.start ≤ e.stop := by
  induction rs generalizing start with
  | nil =>
      obtain rfl := List.mem_singleton.mp he
      exact ⟨h.unmuted, hstart⟩
  | cons r rs ih =>
      rcases List.mem_cons.mp he with rfl | he
      · exact ⟨h.unmuted, Nat.le_succ_of_le (h.start_le r List.mem_cons_self)⟩
      · exact ih h.tail (hstop r List.mem_cons_self)
          (fun r' hr' => hstop r' (List.mem_cons_of_mem r hr')) he

theorem ofCells (symbols : Symbols) (gs : List (Glyph R)) :
    Layout symbols (Cell.number gs) 0 (Region.ofCells symbols (Cell.number gs)) where
  unmuted := unmuted_zero symbols _
  start_le := fun r _ => Nat.zero_le r.left
  left_lt := fun _ hr => left_lt_right (Cell.increasing_positions_number gs) hr
  left_bracket := fun _ hr => (brackets_of_mem_ofCells hr).1
  right_bracket := fun _ hr => (brackets_of_mem_ofCells hr).2
  apart := pairwise_ofCells (Cell.increasing_positions_number gs)

end Layout

theorem gaps_of_forall₂ {place : Nat → Nat} {rs rs' : List Region}
    (h : List.Forall₂ (fun r r' => r'.left = place r.left ∧ r'.right = place r.right) rs rs')
    (hsucc : ∀ r ∈ rs, place (r.left + 1) = place r.left + 1) (start stop : Nat) :
    gaps (place start) (place stop) rs' =
      (gaps start stop rs).map fun e => ⟨place e.start, place e.stop⟩ := by
  induction h generalizing start with
  | nil => rfl
  | cons hr _ ih =>
      have hfirst := hsucc _ List.mem_cons_self
      rw [gaps, gaps, List.map_cons, hr.1, hr.2, hfirst,
        ih fun r hr => hsucc r (List.mem_cons_of_mem _ hr)]

end Region

namespace Token

variable {config : Config R}

/-- Read by turns, gaps and insides give the tokens of the whole. -/
theorem ofCells_drop_eq_stretches {cs : List (Cell R)} {start : Nat} {rs : List Region}
    (h : Region.Layout config.symbols cs start rs) :
    ofCells config [] (cs.drop start) =
      (Region.stretches start cs.length rs).flatMap fun e => ofCells config [] (e.cells cs) := by
  induction rs generalizing start with
  | nil =>
      rw [Region.stretches, List.flatMap_singleton, Extent.cells_length]
  | cons r rs ih =>
      have hopen := h.left_bracket r List.mem_cons_self
      have hgap := ofCells_drop_of_open [] hopen h.unmuted
        (h.start_le r List.mem_cons_self) (by simp [Extent.Clear])
      have hinside := ofCells_drop_of_close (h.right_bracket r List.mem_cons_self)
        hopen.unmuted_succ (h.left_lt r List.mem_cons_self)
      rw [Region.stretches, List.flatMap_cons, List.flatMap_cons, ← ih h.tail, hgap, hinside]
      rfl

/-- The insides of regions are cut out: from a left bracket the reader goes on at
the right one. -/
theorem ofCells_drop_interior (config : Config R) {gs : List (Glyph R)}
    {excluded : List Extent} {r : Region}
    (hr : r.interior ∈ excluded) (hlt : r.left < r.right) (hlength : r.right ≤ gs.length)
    (hfirst : ∀ e ∈ excluded, e.start = r.left + 1 → e.start < e.stop → e.stop = r.right) :
    ofCells config excluded ((Cell.number gs).drop (r.left + 1)) =
      ofCells config excluded ((Cell.number gs).drop r.right) := by
  rcases Nat.eq_or_lt_of_le (Nat.succ_le_of_lt hlt) with heq | hinside
  · -- Nothing stands inside.
    rw [← heq]
  · have hlength' : r.left + 1 < (Cell.number gs).length := by
      rw [Cell.length_number]
      omega
    have hfront := List.drop_eq_getElem_cons hlength'
    have hposition : ((Cell.number gs)[r.left + 1]).position = r.left + 1 :=
      Region.position_of_getElem?_number (List.getElem?_eq_getElem hlength')
    rw [hfront, ← Extent.cells_append_drop (Nat.succ_le_of_lt hinside) (Cell.number gs)]
    refine ofCells_cut hr hfirst hposition hinside ?_ fun _ => Extent.le_position_of_mem_drop
    exact fun d hd => (Extent.position_of_mem_cells hd).2

end Token

/-- The extents to be cut out are the insides of the regions and some that end
before. -/
structure Region.CutOut (excluded : List Extent) (start : Nat) (rs : List Region) : Prop where
  inside : ∀ r ∈ rs, r.interior ∈ excluded
  past : ∀ e ∈ excluded, e.stop ≤ start ∨ ∃ r ∈ rs, e = r.interior

namespace Region.CutOut

variable {symbols : Symbols} {gs : List (Glyph R)} {excluded : List Extent} {start : Nat}
  {r : Region} {rs : List Region}

theorem tail (h : CutOut excluded start (r :: rs)) (hle : start ≤ r.right) :
    CutOut excluded r.right rs where
  inside := fun r' hr' => h.inside r' (List.mem_cons_of_mem r hr')
  past := by
    intro e he
    rcases h.past e he with hpast | ⟨r', hr', rfl⟩
    · exact Or.inl (Nat.le_trans hpast hle)
    · rcases List.mem_cons.mp hr' with rfl | hr'
      · exact Or.inl (Nat.le_refl _)
      · exact Or.inr ⟨r', hr', rfl⟩

theorem clear_of_nil (h : CutOut excluded start []) {c : Cell R}
    (hc : c ∈ (Cell.number gs).drop start) : Extent.Clear excluded c := by
  intro e he _
  have hstop : e.stop ≤ start := by simpa using h.past e he
  exact Nat.le_trans hstop (Extent.le_position_of_mem_drop hc)

theorem clear_of_cons (h : CutOut excluded start (r :: rs))
    (hlayout : Layout symbols (Cell.number gs) start (r :: rs)) {c : Cell R}
    (hc : c ∈ Extent.cells ⟨start, r.left + 1⟩ (Cell.number gs)) : Extent.Clear excluded c := by
  intro e he hstart
  obtain ⟨hle, hlt⟩ := Extent.position_of_mem_cells hc
  rcases h.past e he with hpast | ⟨r', hr', rfl⟩
  · exact Nat.le_trans hpast hle
  · have hleft := hlayout.left_le r' hr'
    simp only [interior] at hstart hlt
    omega

/-- Where the inside of the first region begins, nothing else is cut out. -/
theorem stop_eq_right (h : CutOut excluded start (r :: rs))
    (hlayout : Layout symbols (Cell.number gs) start (r :: rs)) {e : Extent} (he : e ∈ excluded)
    (hstart : e.start = r.left + 1) (hlt : e.start < e.stop) : e.stop = r.right := by
  have hle := hlayout.start_le r List.mem_cons_self
  rcases h.past e he with hpast | ⟨r', hr', rfl⟩
  · omega
  · rcases List.mem_cons.mp hr' with rfl | hr'
    · rfl
    · have hbehind := (List.pairwise_cons.mp hlayout.apart).1 r' hr'
      have hleft := hlayout.left_lt r List.mem_cons_self
      simp only [interior] at hstart
      omega

end Region.CutOut

theorem Token.ofCells_drop_eq_gaps {config : Config R} {gs : List (Glyph R)}
    {excluded : List Extent} {start : Nat} {rs : List Region}
    (hlayout : Region.Layout config.symbols (Cell.number gs) start rs)
    (hcut : Region.CutOut excluded start rs) :
    ofCells config excluded ((Cell.number gs).drop start) =
      (Region.gaps start gs.length rs).flatMap fun e =>
        ofCells config [] (e.cells (Cell.number gs)) := by
  induction rs generalizing start with
  | nil =>
      have hrest : ∀ c ∈ (Cell.number gs).drop start, Extent.Clear excluded c :=
        fun _ hc => hcut.clear_of_nil hc
      have hclear := Extent.cut_append_of_clear hrest []
      rw [List.append_nil, Extent.cut, List.append_nil] at hclear
      rw [Region.gaps, List.flatMap_singleton, ← Cell.length_number gs, Extent.cells_length,
        ofCells_nil, ofCells, hclear]
  | cons r rs ih =>
      have hlt := hlayout.left_lt r List.mem_cons_self
      have hle := hlayout.start_le r List.mem_cons_self
      have hright := (hlayout.right_bracket r List.mem_cons_self).lt_length
      rw [Cell.length_number] at hright
      -- The gap ends at a bracket that counts, so it is read on its own.  From there the
      -- reader goes on at the right bracket, which is where the next gap begins.
      have hgap := ofCells_drop_of_open excluded (hlayout.left_bracket r List.mem_cons_self)
        hlayout.unmuted hle fun _ hc => hcut.clear_of_cons hlayout hc
      have hinside := ofCells_drop_interior config (hcut.inside r List.mem_cons_self) hlt
        (Nat.le_of_lt hright) fun _ he => hcut.stop_eq_right hlayout he
      rw [Region.gaps, List.flatMap_cons, hgap, hinside, ih hlayout.tail (hcut.tail (by omega))]

theorem Score.body_eq_gaps (config : Config R) (gs : List (Glyph R)) :
    (Score.ofCells config (Cell.number gs)).body =
      (Region.gaps 0 gs.length (Region.ofCells config.symbols (Cell.number gs))).flatMap fun e =>
        Token.ofCells config [] (e.cells (Cell.number gs)) := by
  have hcut : Region.CutOut
      ((Region.ofCells config.symbols (Cell.number gs)).map Region.interior) 0
      (Region.ofCells config.symbols (Cell.number gs)) :=
    ⟨fun r hr => List.mem_map_of_mem hr, fun e he => by
      obtain ⟨r, hr, rfl⟩ := List.mem_map.mp he
      exact Or.inr ⟨r, hr, rfl⟩⟩
  have hgaps := Token.ofCells_drop_eq_gaps (Region.Layout.ofCells config.symbols gs) hcut
  rw [List.drop_zero] at hgaps
  exact hgaps

/-- The tokens of the gaps and those of the insides are the tokens of the
stretches, in another order. -/
theorem Region.flatMap_stretches_perm {β : Type} (start stop : Nat) (rs : List Region)
    (f : Extent → List β) :
    ((stretches start stop rs).flatMap f).Perm
      ((gaps start stop rs).flatMap f ++ rs.flatMap fun r => f r.interior) := by
  induction rs generalizing start with
  | nil => simp [stretches, gaps]
  | cons r rs ih =>
      rw [stretches, gaps, List.flatMap_cons, List.flatMap_cons, List.flatMap_cons,
        List.flatMap_cons, List.append_assoc]
      refine List.Perm.append_left _ ?_
      exact ((ih r.right).append_left _).trans (List.perm_append_comm_assoc _ _ _)

/-- **Body and loops share a paragraph.** The body is read in the gaps between the
regions, and gaps and insides by turns give the tokens of the whole.  So body and
loops together have the tokens of the whole, each of them once, and with them
every letter that stands outside quotes and is no symbol, as it is in its
paragraph. -/
theorem Score.body_and_loops_share_tokens (config : Config R) (gs : List (Glyph R)) :
    let cs := Cell.number gs
    let regions := Region.ofCells config.symbols cs
    let tokens (e : Extent) := Token.ofCells config [] (e.cells cs)
    let shared := (Score.ofCells config cs).body ++
      (Score.ofCells config cs).loops.flatMap Prod.snd
    Token.ofCells config (regions.map Region.interior) cs =
      (Region.gaps 0 cs.length regions).flatMap tokens ∧
    Token.ofCells config [] cs = (Region.stretches 0 cs.length regions).flatMap tokens ∧
    (Score.ofCells config cs).body = Token.ofCells config (regions.map Region.interior) cs ∧
    (Score.ofCells config cs).loops = regions.map (fun r => (r.key, tokens r.interior)) ∧
    shared.Perm (Token.ofCells config [] cs) ∧
    ((shared.flatMap Token.letters).map Letter.index).Nodup ∧
    ∀ l, l ∈ shared.flatMap Token.letters ↔ ∃ i g, gs[i]? = some g ∧
      Even ((gs.take i).countP fun g => g.char = config.symbols .quote) ∧
      config.symbols.IsNote g.char ∧
      l = ⟨g.char, g.attributes, (gs.take i).countP fun g => isLetter g.char⟩ := by
  intro cs regions tokens shared
  have hlayout := Region.Layout.ofCells config.symbols gs
  have hbody : Token.ofCells config (regions.map Region.interior) cs =
      (Region.gaps 0 cs.length regions).flatMap tokens := by
    rw [Cell.length_number]
    exact Score.body_eq_gaps config gs
  have hwhole : Token.ofCells config [] cs =
      (Region.stretches 0 cs.length regions).flatMap tokens := by
    have hstretches := Token.ofCells_drop_eq_stretches hlayout
    rw [List.drop_zero] at hstretches
    exact hstretches
  have hperm : shared.Perm (Token.ofCells config [] cs) := by
    have hloops : (Score.ofCells config cs).loops.flatMap Prod.snd =
        regions.flatMap fun r => tokens r.interior := List.flatMap_map _ _ _
    have hshared : shared = (Region.gaps 0 cs.length regions).flatMap tokens ++
        regions.flatMap fun r => tokens r.interior := by
      rw [← hbody, ← hloops]
      rfl
    rw [hshared, hwhole]
    exact (Region.flatMap_stretches_perm 0 cs.length regions tokens).symm
  have hletters := hperm.flatMap_right Token.letters
  refine ⟨hbody, hwhole, rfl, rfl, hperm, ?_, fun l => ?_⟩
  · rw [(hletters.map Letter.index).nodup_iff]
    exact (Token.increasing_ordinals config gs).imp Nat.ne_of_lt
  · rw [hletters.mem_iff]
    exact Token.mem_letters_iff

/-- A word is cut by a loop, a bracket is muted, and the second loop is a chord. -/
theorem Score.body_and_loops_share_letters :
    let config : Config Rat := .standard
    let glyphs := (Paragraph.plain "ab[c d]e \"f[\" [gh]".toList).glyphs config.baseSize
    let cs := Cell.number glyphs
    let score := Score.ofCells config cs
    let letters (tokens : List (Token Rat)) : List (List Nat) :=
      tokens.map fun t => t.letters.map Letter.index
    letters score.body = [[0, 1], [4]] ∧
      score.loops.map (fun x => letters x.2) = [[[2], [3]], [[6, 7]]] ∧
      letters (Token.ofCells config [] cs) = [[0, 1], [2], [3], [4], [6, 7]] ∧
      (score.body ++ score.loops.flatMap Prod.snd).Perm (Token.ofCells config [] cs) ∧
      (((score.body ++ score.loops.flatMap Prod.snd).flatMap Token.letters).map
        Letter.index).Nodup := by
  intro config glyphs cs score letters
  obtain ⟨-, -, -, -, hperm, hnodup, -⟩ := Score.body_and_loops_share_tokens config glyphs
  exact ⟨by decide +kernel, by decide +kernel, by decide +kernel, hperm, hnodup⟩

end ProseScore
