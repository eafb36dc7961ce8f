import Mathlib.Algebra.Group.Nat.Even
import ProseScore.Proofs.Region.Sequence
import ProseScore.Token.Mark

/-!
# The brackets of regions

Quotes come in twos: what stands behind an even number of them is not muted.
The scan for regions and the reader of tokens both count quotes from the left,
so a bracket that the scan has found is one that the reader sees, too.  Told by
their positions, the brackets outside quotes are the sequence that the scan
matches.
-/

namespace ProseScore

variable {R : Type} {symbols : Symbols}

/-- The position stands outside quotes: behind an even number of them. -/
def Unmuted (symbols : Symbols) (cs : List (Cell R)) (i : Nat) : Prop :=
  Even ((Cell.text (cs.take i)).count (symbols .quote))

instance (symbols : Symbols) (cs : List (Cell R)) (i : Nat) : Decidable (Unmuted symbols cs i) :=
  inferInstanceAs (Decidable (Even _))

theorem unmuted_zero (symbols : Symbols) (cs : List (Cell R)) : Unmuted symbols cs 0 := by
  simp [Unmuted, Cell.text]

theorem unmuted_succ_iff {cs : List (Cell R)} {i : Nat} {c : Cell R} (hc : cs[i]? = some c) :
    Unmuted symbols cs (i + 1) ↔
      if c.char = symbols .quote then ¬ Unmuted symbols cs i else Unmuted symbols cs i := by
  have htake : Cell.text (cs.take (i + 1)) = Cell.text (cs.take i) ++ [c.char] := by
    rw [List.take_add_one, hc, Cell.text, List.map_append]
    rfl
  rw [Unmuted, Unmuted, htake, List.count_append, List.count_singleton]
  by_cases hq : c.char = symbols .quote
  · simp [hq, Nat.even_add_one]
  · simp [hq]

/-- The reader comes out of a stretch as muted as it went in exactly if the
quotes in the stretch are even in number. -/
theorem Mark.mutedBehind_eq_self_iff (muted : Bool) (cs : List (Cell R)) :
    mutedBehind symbols muted (cs.map some) = muted ↔
      Even ((Cell.text cs).count (symbols .quote)) := by
  induction cs generalizing muted with
  | nil => simp [mutedBehind, Cell.text]
  | cons c cs ih =>
      have hcons : mutedBehind symbols muted ((c :: cs).map some) =
          mutedBehind symbols (if c.char = symbols .quote then !muted else muted)
            (cs.map some) := by
        simp [mutedBehind]
      have htext : Cell.text (c :: cs) = c.char :: Cell.text cs := rfl
      rw [hcons, htext, List.count_cons]
      by_cases hq : c.char = symbols .quote
      · have hflip := ih (!muted)
        simp only [hq, if_true, beq_self_eq_true]
        rw [Nat.even_add_one, ← hflip]
        cases muted <;> simp
      · simpa [hq] using ih muted

/-- A loop bracket of one kind that counts: it stands outside quotes. -/
structure BracketAt (symbols : Symbols) (role : Role) (cs : List (Cell R)) (i : Nat) : Prop where
  unmuted : Unmuted symbols cs i
  exists_cell : ∃ c, cs[i]? = some c ∧ c.char = symbols role ∧ c.char ≠ symbols .quote

theorem bracketAt_iff {role : Role} {cs : List (Cell R)} {i : Nat} {c : Cell R}
    (hc : cs[i]? = some c) :
    BracketAt symbols role cs i ↔
      Unmuted symbols cs i ∧ c.char = symbols role ∧ c.char ≠ symbols .quote := by
  constructor
  · rintro ⟨hunmuted, c', hc', hchar⟩
    obtain rfl : c = c' := Option.some_inj.mp (hc.symm.trans hc')
    exact ⟨hunmuted, hchar⟩
  · rintro ⟨hunmuted, hchar⟩
    exact ⟨hunmuted, c, hc, hchar⟩

instance (symbols : Symbols) (role : Role) (cs : List (Cell R)) (i : Nat) :
    Decidable (BracketAt symbols role cs i) :=
  match hc : cs[i]? with
  | none => isFalse fun h => by
      obtain ⟨c, hc', -⟩ := h.exists_cell
      rw [hc] at hc'
      cases hc'
  | some _ => decidable_of_iff _ (bracketAt_iff hc).symm

theorem BracketAt.unmuted_succ {role : Role} {cs : List (Cell R)} {i : Nat}
    (h : BracketAt symbols role cs i) : Unmuted symbols cs (i + 1) := by
  obtain ⟨c, hc, -, hne⟩ := h.exists_cell
  rw [unmuted_succ_iff hc, if_neg hne]
  exact h.unmuted

theorem BracketAt.lt_length {role : Role} {cs : List (Cell R)} {i : Nat}
    (h : BracketAt symbols role cs i) : i < cs.length := by
  obtain ⟨c, hc, -⟩ := h.exists_cell
  exact (List.getElem?_eq_some_iff.mp hc).1

namespace Bracket

/-- The loop bracket at a position, if there is one outside quotes. -/
def at? (symbols : Symbols) (cs : List (Cell R)) (i : Nat) : Option Bracket :=
  if BracketAt symbols .loopOpen cs i then some (.left i)
  else if BracketAt symbols .loopClose cs i then some (.right i)
  else none

theorem position_of_at? {cs : List (Cell R)} {i : Nat} {b : Bracket}
    (h : at? symbols cs i = some b) : b.position = i := by
  rw [at?] at h
  split_ifs at h
  · cases h
    rfl
  · cases h
    rfl

theorem at?_eq_left_iff {cs : List (Cell R)} {i : Nat} :
    at? symbols cs i = some (.left i) ↔ BracketAt symbols .loopOpen cs i := by
  rw [at?]
  split_ifs with hopen hclose <;> simp [hopen]

theorem bracketAt_of_at?_eq_right {cs : List (Cell R)} {i : Nat}
    (h : at? symbols cs i = some (.right i)) : BracketAt symbols .loopClose cs i := by
  rw [at?] at h
  split_ifs at h with hopen hclose
  · cases h
  · exact hclose

end Bracket

namespace Region

theorem position_of_getElem?_number {gs : List (Glyph R)} {i : Nat} {c : Cell R}
    (h : (Cell.number gs)[i]? = some c) : c.position = i := by
  rw [Cell.getElem?_number, Option.map_eq_some_iff] at h
  obtain ⟨g, -, rfl⟩ := h
  rfl

end Region

/-! ## Extents -/

namespace Extent

theorem cells_append_drop {a b : Nat} (h : a ≤ b) (cs : List (Cell R)) :
    Extent.cells ⟨a, b⟩ cs ++ cs.drop b = cs.drop a := by
  obtain ⟨k, rfl⟩ := Nat.exists_eq_add_of_le h
  rw [cells, Nat.add_sub_cancel_left, ← List.drop_drop, List.take_append_drop]

theorem cells_length (a : Nat) (cs : List (Cell R)) :
    Extent.cells ⟨a, cs.length⟩ cs = cs.drop a := by
  rw [cells, ← List.length_drop, List.take_length]

theorem cells_succ {a i : Nat} (h : a ≤ i) {cs : List (Cell R)} {c : Cell R}
    (hc : cs[i]? = some c) :
    Extent.cells ⟨a, i + 1⟩ cs = Extent.cells ⟨a, i⟩ cs ++ [c] := by
  obtain ⟨k, rfl⟩ := Nat.exists_eq_add_of_le h
  rw [cells, cells, Nat.add_sub_cancel_left, Nat.add_assoc, Nat.add_sub_cancel_left,
    List.take_add_one, List.getElem?_drop, hc]
  rfl

theorem even_cells {symbols : Symbols} {cs : List (Cell R)} {a b : Nat} (h : a ≤ b)
    (ha : Unmuted symbols cs a) (hb : Unmuted symbols cs b) :
    Even ((Cell.text (Extent.cells ⟨a, b⟩ cs)).count (symbols .quote)) := by
  obtain ⟨k, rfl⟩ := Nat.exists_eq_add_of_le h
  have htake : Cell.text (cs.take (a + k)) =
      Cell.text (cs.take a) ++ Cell.text (Extent.cells ⟨a, a + k⟩ cs) := by
    rw [List.take_add, Cell.text, List.map_append, cells, Nat.add_sub_cancel_left]
    rfl
  rw [Unmuted, htake, List.count_append, Nat.even_add] at hb
  exact hb.mp ha

theorem text_cells_number (e : Extent) (gs : List (Glyph R)) :
    Cell.text (e.cells (Cell.number gs)) =
      ((gs.map Glyph.char).drop e.start).take (e.stop - e.start) := by
  rw [← Cell.text_number, cells, Cell.text, Cell.text, List.map_take, List.map_drop]

theorem le_position_of_mem_drop {gs : List (Glyph R)} {a : Nat} {c : Cell R}
    (h : c ∈ (Cell.number gs).drop a) : a ≤ c.position := by
  obtain ⟨i, hi⟩ := List.mem_iff_getElem?.mp h
  rw [List.getElem?_drop] at hi
  rw [Region.position_of_getElem?_number hi]
  exact Nat.le_add_right a i

theorem position_of_mem_cells {gs : List (Glyph R)} {e : Extent} {c : Cell R}
    (h : c ∈ e.cells (Cell.number gs)) : e.start ≤ c.position ∧ c.position < e.stop := by
  obtain ⟨i, hi⟩ := List.mem_iff_getElem?.mp h
  rw [cells, List.getElem?_take] at hi
  split_ifs at hi with hlt
  rw [List.getElem?_drop] at hi
  rw [Region.position_of_getElem?_number hi]
  omega

end Extent

/-! ## The brackets of an extent -/

/-- The loop brackets outside quotes in an extent. -/
def Extent.brackets (symbols : Symbols) (cs : List (Cell R)) (e : Extent) : List Bracket :=
  (List.range' e.start (e.stop - e.start)).filterMap (Bracket.at? symbols cs)

namespace Extent

variable {cs : List (Cell R)} {front rest : List Bracket} {b : Bracket}

theorem at?_of_mem_brackets {e : Extent} (h : b ∈ e.brackets symbols cs) :
    Bracket.at? symbols cs b.position = some b := by
  obtain ⟨i, -, hi⟩ := List.mem_filterMap.mp h
  rwa [Bracket.position_of_at? hi]

theorem brackets_append {a i k : Nat} (hai : a ≤ i) (hik : i ≤ k) :
    brackets symbols cs ⟨a, k⟩ = brackets symbols cs ⟨a, i⟩ ++ brackets symbols cs ⟨i, k⟩ := by
  obtain ⟨m, rfl⟩ := Nat.exists_eq_add_of_le hai
  obtain ⟨n, rfl⟩ := Nat.exists_eq_add_of_le hik
  simp only [brackets, Nat.add_assoc, Nat.add_sub_cancel_left]
  rw [← List.filterMap_append, Nat.add_sub_add_left, Nat.add_sub_cancel_left, List.range'_append_1]

theorem brackets_of_lt {i k : Nat} (h : i < k) :
    brackets symbols cs ⟨i, k⟩ =
      (Bracket.at? symbols cs i).toList ++ brackets symbols cs ⟨i + 1, k⟩ := by
  obtain ⟨n, rfl⟩ := Nat.exists_eq_add_of_lt h
  have hcount : i + n + 1 - i = n + 1 := by omega
  have hcount' : i + n + 1 - (i + 1) = n := by omega
  simp only [brackets, hcount, hcount', List.range'_succ, List.filterMap_cons]
  cases Bracket.at? symbols cs i <;> rfl

/-- A bracket parts the brackets before it from those behind it. -/
theorem brackets_eq_append_cons_iff {e : Extent} :
    e.brackets symbols cs = front ++ b :: rest ↔
      e.start ≤ b.position ∧ b.position < e.stop ∧
        Bracket.at? symbols cs b.position = some b ∧
        front = brackets symbols cs ⟨e.start, b.position⟩ ∧
        rest = brackets symbols cs ⟨b.position + 1, e.stop⟩ := by
  constructor
  · intro h
    obtain ⟨xs, ys, hsplit, rfl, hys⟩ := List.filterMap_eq_append_iff.mp h
    obtain ⟨skipped, i, zs, rfl, hnone, hi, rfl⟩ := List.filterMap_eq_cons_iff.mp hys
    obtain rfl := Bracket.position_of_at? hi
    rw [← List.append_assoc] at hsplit
    obtain ⟨n, -, hbefore, hbehind⟩ := List.range'_eq_append_iff.mp hsplit
    obtain ⟨hstart, hpos, hzs⟩ := List.range'_eq_cons_iff.mp hbehind.symm
    have hcount : b.position - e.start = n := by omega
    have hcount' : e.stop - (b.position + 1) = e.stop - e.start - n - 1 := by omega
    refine ⟨by omega, by omega, hi, ?_, ?_⟩
    · have hskipped : skipped.filterMap (Bracket.at? symbols cs) = [] :=
        List.filterMap_eq_nil_iff.mpr hnone
      rw [brackets, hcount, ← hbefore, List.filterMap_append, hskipped, List.append_nil]
    · rw [brackets, hcount', hzs]
  · rintro ⟨hstart, hlt, hb, rfl, rfl⟩
    rw [brackets_append hstart (Nat.le_of_lt hlt), brackets_of_lt hlt, hb]
    rfl

/-- Told by positions or found on the way, the brackets are the same. -/
theorem brackets_eq_ofText {muted : Bool} {i k : Nat} (hik : i ≤ k) (hk : k ≤ cs.length)
    (hmuted : muted = false ↔ Unmuted symbols cs i) :
    brackets symbols cs ⟨i, k⟩ =
      Bracket.ofText symbols muted i (Cell.text (Extent.cells ⟨i, k⟩ cs)) := by
  -- The induction is from the end of the extent to its start, as the text is taken apart.
  induction hik using Nat.decreasingInduction generalizing muted with
  | self => simp [brackets, cells, Cell.text, Bracket.ofText]
  | of_succ i hlt ih =>
      have hi : i < cs.length := Nat.lt_of_lt_of_le hlt hk
      have hc : cs[i]? = some cs[i] := List.getElem?_eq_getElem hi
      have hnext : Unmuted symbols cs (i + 1) ↔ _ := unmuted_succ_iff hc
      have hcells : Cell.text (Extent.cells ⟨i, k⟩ cs) =
          cs[i].char :: Cell.text (Extent.cells ⟨i + 1, k⟩ cs) := by
        have hcount : k - i = k - (i + 1) + 1 := by omega
        rw [cells, List.drop_eq_getElem_cons hi, hcount, List.take_succ_cons]
        rfl
      rw [brackets_of_lt hlt, hcells, Bracket.ofText, Bracket.at?]
      simp only [bracketAt_iff hc, ← hmuted]
      by_cases hq : cs[i].char = symbols .quote
      · rw [if_pos hq] at hnext
        have hflip : (!muted) = false ↔ Unmuted symbols cs (i + 1) := by
          rw [hnext, ← hmuted]
          simp
        simp [hq, ih hflip]
      · rw [if_neg hq] at hnext
        rw [ih (hmuted.trans hnext.symm)]
        cases muted with
        | true => simp [hq]
        | false =>
            simp only [hq, ne_eq, not_false_eq_true, and_true, true_and, Bool.false_eq_true,
              if_false]
            split_ifs <;> rfl

end Extent

namespace Region

/-- The brackets that the scan sees are those of the whole text. -/
theorem pairs_number_eq_brackets (symbols : Symbols) (gs : List (Glyph R)) :
    pairs symbols false [] (Cell.number gs) =
      Bracket.pairs [] (Extent.brackets symbols (Cell.number gs) ⟨0, gs.length⟩) := by
  have hlength : gs.length ≤ (Cell.number gs).length := Nat.le_of_eq (Cell.length_number gs).symm
  have hunmuted : false = false ↔ Unmuted symbols (Cell.number gs) 0 :=
    iff_of_true rfl (unmuted_zero symbols _)
  have hcells : Extent.cells ⟨0, gs.length⟩ (Cell.number gs) = Cell.number gs := by
    rw [← Cell.length_number gs, Extent.cells_length, List.drop_zero]
  rw [Extent.brackets_eq_ofText (Nat.zero_le _) hlength hunmuted, hcells, Cell.text_number,
    pairs_number]

/-- Both brackets of a region count. -/
theorem brackets_of_mem_ofCells {gs : List (Glyph R)} {r : Region}
    (hr : r ∈ ofCells symbols (Cell.number gs)) :
    BracketAt symbols .loopOpen (Cell.number gs) r.left ∧
      BracketAt symbols .loopClose (Cell.number gs) r.right := by
  have hplace : (r.left, r.right) ∈
      (ofCells symbols (Cell.number gs)).map fun r => (r.left, r.right) :=
    List.mem_map_of_mem hr
  rw [map_places_ofCells] at hplace
  have hpair := List.mem_of_mem_filter hplace
  rw [pairs_number_eq_brackets] at hpair
  obtain ⟨hleft, hright⟩ := Bracket.mem_of_mem_pairs_nil hpair
  exact ⟨Bracket.at?_eq_left_iff.mp (Extent.at?_of_mem_brackets hleft),
    Bracket.bracketAt_of_at?_eq_right (Extent.at?_of_mem_brackets hright)⟩

end Region

end ProseScore
