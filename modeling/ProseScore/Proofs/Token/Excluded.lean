import Mathlib.Data.List.Nodup
import ProseScore.Proofs.Region.Order
import ProseScore.Proofs.Token.Sounding
import ProseScore.Scalar.Exact

/-!
# What extents leave out

Extents that are cut out may overlap.  Only where the cells are not skipped already
does one begin, the first of those that are listed, and what begins inside another
one or before all cells is passed over.  So the extents that are skipped stand apart,
and reading leaves out these and no more.
-/

namespace ProseScore

variable {R : Type}

namespace Extent

def Covers (e : Extent) (i : Nat) : Prop :=
  e.start ≤ i ∧ i < e.stop

instance (e : Extent) (i : Nat) : Decidable (e.Covers i) :=
  inferInstanceAs (Decidable (_ ∧ _))

/-- The first of the extents that begin at a position and are not empty. -/
def first? (excluded : List Extent) (i : Nat) : Option Extent :=
  excluded.find? fun e => e.start = i ∧ i < e.stop

theorem first?_eq_some {excluded : List Extent} {i : Nat} {e : Extent}
    (h : first? excluded i = some e) : e ∈ excluded ∧ e.start = i ∧ i < e.stop := by
  rw [first?] at h
  exact ⟨List.mem_of_find?_eq_some h, by simpa using List.find?_some h⟩

theorem exists_first? {excluded : List Extent} {e : Extent} (he : e ∈ excluded)
    (hlt : e.start < e.stop) : ∃ f, first? excluded e.start = some f := by
  rw [← Option.isSome_iff_exists, first?, List.find?_isSome]
  exact ⟨e, he, decide_eq_true ⟨rfl, hlt⟩⟩

theorem first?_cons_of_ne {e : Extent} {i : Nat} (h : e.start ≠ i) (excluded : List Extent) :
    first? (e :: excluded) i = first? excluded i :=
  List.find?_cons_of_neg (by simp [h])

/-- What is skipped on the way from `start` to `stop`: at each position that is not
inside another skipped extent, the first that begins there. -/
structure Skips (excluded : List Extent) (start stop : Nat) (skipped : List Extent) : Prop where
  apart : skipped.Pairwise fun e f => e.stop ≤ f.start
  mem_iff : ∀ e, e ∈ skipped ↔ start ≤ e.start ∧ e.start < stop ∧
    first? excluded e.start = some e ∧ ∀ f ∈ skipped, f.start < e.start → f.stop ≤ e.start

namespace Skips

variable {excluded skipped : List Extent} {start stop : Nat} {e : Extent}

theorem mem_excluded (h : Skips excluded start stop skipped) (he : e ∈ skipped) :
    e ∈ excluded :=
  (first?_eq_some ((h.mem_iff e).mp he).2.2.1).1

theorem start_le (h : Skips excluded start stop skipped) (he : e ∈ skipped) :
    start ≤ e.start :=
  ((h.mem_iff e).mp he).1

theorem nil (hle : stop ≤ start) : Skips excluded start stop [] where
  apart := List.Pairwise.nil
  mem_iff := by
    intro e
    refine iff_of_false List.not_mem_nil ?_
    rintro ⟨hstart, hstop, -⟩
    omega

/-- Nothing begins at the first position. -/
theorem pass (h : Skips excluded (start + 1) stop skipped)
    (hnone : first? excluded start = none) : Skips excluded start stop skipped where
  apart := h.apart
  mem_iff := by
    intro e
    rw [h.mem_iff]
    apply and_congr_left
    rintro ⟨-, hfirst, -⟩
    refine ⟨Nat.le_of_succ_le, fun hle => Nat.lt_of_le_of_ne hle ?_⟩
    rintro rfl
    exact absurd (hnone.symm.trans hfirst) (Option.some_ne_none e).symm

theorem skip (h : Skips excluded e.stop stop skipped) (hlt : e.start < stop)
    (hfirst : first? excluded e.start = some e) :
    Skips excluded e.start stop (e :: skipped) where
  apart := List.pairwise_cons.mpr ⟨fun f hf => h.start_le hf, h.apart⟩
  mem_iff := by
    have hbegins := (first?_eq_some hfirst).2.2
    intro f
    rw [List.mem_cons]
    constructor
    · rintro (rfl | hf)
      · refine ⟨Nat.le_refl _, hlt, hfirst, fun g hg hless => ?_⟩
        rcases List.mem_cons.mp hg with rfl | hg
        · exact absurd hless (Nat.lt_irrefl _)
        · have hbehind := h.start_le hg
          omega
      · obtain ⟨hstart, hstop, hfirst', hother⟩ := (h.mem_iff f).mp hf
        refine ⟨by omega, hstop, hfirst', fun g hg hless => ?_⟩
        rcases List.mem_cons.mp hg with rfl | hg
        · exact hstart
        · exact hother g hg hless
    · rintro ⟨hstart, hstop, hfirst', hother⟩
      rcases Nat.eq_or_lt_of_le hstart with heq | hless
      · rw [← heq, hfirst] at hfirst'
        exact Or.inl (Option.some_inj.mp hfirst').symm
      · refine Or.inr ((h.mem_iff f).mpr ⟨?_, hstop, hfirst', fun g hg => ?_⟩)
        · exact hother e List.mem_cons_self hless
        · exact hother g (List.mem_cons_of_mem e hg)

/-- An extent that begins on the way is skipped, or it begins where another one is. -/
theorem exists_covers (h : Skips excluded start stop skipped) (he : e ∈ excluded)
    (hlt : e.start < e.stop) (hstart : start ≤ e.start) (hstop : e.start < stop) :
    ∃ f ∈ skipped, f.Covers e.start := by
  by_cases hinside : ∀ f ∈ skipped, f.start < e.start → f.stop ≤ e.start
  · obtain ⟨f, hf⟩ := exists_first? he hlt
    obtain ⟨-, heq, hbegins⟩ := first?_eq_some hf
    refine ⟨f, (h.mem_iff f).mpr ?_, heq.le, hbegins⟩
    rw [heq]
    exact ⟨hstart, hstop, hf, hinside⟩
  · push Not at hinside
    obtain ⟨f, hf, hless, hbehind⟩ := hinside
    exact ⟨f, hf, hless.le, hbehind⟩

/-- What still covers a position that is not skipped begins before the way, or where
another one is that has been passed. -/
theorem passed_of_covers (h : Skips excluded start stop skipped) (he : e ∈ excluded) {i : Nat}
    (hi : i < stop) (hfree : ∀ f ∈ skipped, ¬ f.Covers i) (hcovers : e.Covers i) :
    e.start < start ∨ ∃ f ∈ skipped, f.Covers e.start ∧ f.stop ≤ i := by
  obtain ⟨hbegins, hends⟩ := hcovers
  refine or_iff_not_imp_left.mpr fun hstart => ?_
  obtain ⟨f, hf, hinside⟩ :=
    h.exists_covers he (by omega) (Nat.le_of_not_lt hstart) (by omega)
  refine ⟨f, hf, hinside, Nat.le_of_not_lt fun hbehind => hfree f hf ⟨?_, hbehind⟩⟩
  exact Nat.le_trans hinside.1 hbegins

end Skips

/-! ## Cells that are kept -/

theorem mem_of_mem_cut {excluded : List Extent} {resume : Nat} {cs : List (Cell R)} {c : Cell R}
    (h : some c ∈ cut excluded resume cs) : c ∈ cs ∧ resume ≤ c.position := by
  induction cs generalizing resume with
  | nil => exact absurd h List.not_mem_nil
  | cons d cs ih =>
      rw [cut] at h
      split at h
      · exact (ih h).imp_left (List.mem_cons_of_mem d)
      · rename_i hresume
        split at h
        · rename_i e hfirst
          obtain ⟨-, -, hbegins⟩ := first?_eq_some hfirst
          obtain ⟨hc, hle⟩ := ih ((List.mem_cons.mp h).resolve_left (Option.some_ne_none c))
          exact ⟨List.mem_cons_of_mem d hc, by omega⟩
        · rcases List.mem_cons.mp h with heq | h
          · obtain rfl := Option.some_inj.mp heq
            exact ⟨List.mem_cons_self, Nat.le_of_not_lt hresume⟩
          · exact (ih h).imp_left (List.mem_cons_of_mem d)

theorem cut_congr {excluded excluded' : List Extent} (resume : Nat) {cs : List (Cell R)}
    (h : ∀ c ∈ cs, first? excluded c.position = first? excluded' c.position) :
    cut excluded resume cs = cut excluded' resume cs := by
  induction cs generalizing resume with
  | nil => rfl
  | cons c cs ih =>
      obtain ⟨hc, hcs⟩ := List.forall_mem_cons.mp h
      rw [first?, first?] at hc
      rw [cut, cut, hc]
      split
      · exact ih resume hcs
      · split
        · rw [ih _ hcs]
        · rw [ih resume hcs]

/-- The extents are cut out as the skipped ones are, and nothing that these cover is
kept. -/
structure CutsAs (excluded : List Extent) (resume : Nat) (cs : List (Cell R))
    (skipped : List Extent) : Prop where
  cut_eq : cut skipped resume cs = cut excluded resume cs
  not_covers : ∀ c, some c ∈ cut excluded resume cs → ∀ e ∈ skipped, ¬ e.Covers c.position

namespace CutsAs

variable {excluded skipped : List Extent} {resume : Nat} {c : Cell R} {cs : List (Cell R)}

theorem behind (h : CutsAs excluded resume cs skipped) (hresume : c.position < resume) :
    CutsAs excluded resume (c :: cs) skipped where
  cut_eq := by rw [cut, cut, if_pos hresume, if_pos hresume, h.cut_eq]
  not_covers := by
    rw [cut, if_pos hresume]
    exact h.not_covers

theorem pass (h : CutsAs excluded resume cs skipped) (hresume : ¬ c.position < resume)
    (hfirst : first? excluded c.position = none) (hstart : ∀ e ∈ skipped, c.position < e.start) :
    CutsAs excluded resume (c :: cs) skipped := by
  have hnone : first? skipped c.position = none := by
    rw [Option.eq_none_iff_forall_ne_some]
    intro e he
    obtain ⟨hmem, heq, -⟩ := first?_eq_some he
    exact absurd heq (Nat.ne_of_gt (hstart e hmem))
  rw [first?] at hfirst hnone
  have hkept : cut excluded resume (c :: cs) = some c :: cut excluded resume cs := by
    rw [cut, if_neg hresume, hfirst]
  refine ⟨?_, fun d hd e he hcovers => ?_⟩
  · rw [hkept, cut, if_neg hresume, hnone]
    simp only [h.cut_eq]
  · rw [hkept] at hd
    rcases List.mem_cons.mp hd with heq | hd
    · obtain rfl := Option.some_inj.mp heq
      exact absurd hcovers.1 (Nat.not_le.mpr (hstart e he))
    · exact h.not_covers d hd e he hcovers

theorem skip {e : Extent} (h : CutsAs excluded e.stop cs skipped)
    (hresume : ¬ c.position < resume) (hfirst : first? excluded c.position = some e)
    (hbehind : ∀ d ∈ cs, c.position < d.position) :
    CutsAs excluded resume (c :: cs) (e :: skipped) := by
  obtain ⟨-, heq, hbegins⟩ := first?_eq_some hfirst
  have hhead : first? (e :: skipped) c.position = some e :=
    List.find?_cons_of_pos (decide_eq_true ⟨heq, hbegins⟩)
  have htail : cut (e :: skipped) e.stop cs = cut skipped e.stop cs := by
    apply cut_congr
    intro d hd
    exact first?_cons_of_ne (heq ▸ Nat.ne_of_lt (hbehind d hd)) skipped
  rw [first?] at hfirst hhead
  have hskipped : cut excluded resume (c :: cs) = none :: cut excluded e.stop cs := by
    rw [cut, if_neg hresume, hfirst]
  refine ⟨?_, fun d hd f hf hcovers => ?_⟩
  · rw [hskipped, cut, if_neg hresume, hhead]
    simp only [htail, h.cut_eq]
  · rw [hskipped] at hd
    have hd := (List.mem_cons.mp hd).resolve_left (Option.some_ne_none d)
    rcases List.mem_cons.mp hf with rfl | hf
    · exact absurd (mem_of_mem_cut hd).2 (Nat.not_le.mpr hcovers.2)
    · exact h.not_covers d hd f hf hcovers

end CutsAs

/-- Cutting out extents is cutting out those that are skipped. -/
theorem exists_skips (excluded : List Extent) {k : Nat} (resume : Nat) {cs : List (Cell R)}
    (hcs : cs.map Cell.position = List.range' k cs.length) :
    ∃ skipped, Skips excluded (max k resume) (k + cs.length) skipped ∧
      CutsAs excluded resume cs skipped := by
  induction cs generalizing k resume with
  | nil =>
      exact ⟨[], .nil (Nat.le_max_left k resume), rfl, fun c hc => absurd hc List.not_mem_nil⟩
  | cons c cs ih =>
      rw [List.map_cons, List.length_cons, List.range'_succ] at hcs
      obtain ⟨rfl, hcs⟩ := List.cons_eq_cons.mp hcs
      have hbehind : ∀ d ∈ cs, c.position < d.position := by
        intro d hd
        have hmem := List.mem_map_of_mem (f := Cell.position) hd
        rw [hcs, List.mem_range'_1] at hmem
        exact hmem.1
      have hstop : c.position + (c :: cs).length = c.position + 1 + cs.length := by
        rw [List.length_cons, Nat.add_assoc, Nat.add_comm 1]
      rw [hstop]
      by_cases hresume : c.position < resume
      · obtain ⟨skipped, hskips, hcuts⟩ := ih resume hcs
        rw [Nat.max_eq_right hresume] at hskips
        rw [Nat.max_eq_right hresume.le]
        exact ⟨skipped, hskips, hcuts.behind hresume⟩
      · rw [Nat.max_eq_left (Nat.le_of_not_lt hresume)]
        cases hfirst : first? excluded c.position with
        | none =>
            obtain ⟨skipped, hskips, hcuts⟩ := ih resume hcs
            rw [Nat.max_eq_left (Nat.le_succ_of_le (Nat.le_of_not_lt hresume))] at hskips
            exact ⟨skipped, hskips.pass hfirst,
              hcuts.pass hresume hfirst fun e he => hskips.start_le he⟩
        | some e =>
            obtain ⟨-, heq, hbegins⟩ := first?_eq_some hfirst
            obtain ⟨skipped, hskips, hcuts⟩ := ih e.stop hcs
            rw [Nat.max_eq_right hbegins] at hskips
            have hskip := hskips.skip (by omega) (heq ▸ hfirst)
            exact ⟨e :: skipped, heq ▸ hskip, hcuts.skip hresume hfirst hbehind⟩

theorem map_position_cells (e : Extent) (gs : List (Glyph R)) :
    (e.cells (Cell.number gs)).map Cell.position =
      List.range' e.start (e.cells (Cell.number gs)).length := by
  have hpositions : (e.cells (Cell.number gs)).map Cell.position =
      (List.range' e.start (gs.length - e.start)).take (e.stop - e.start) := by
    rw [cells, List.map_take, List.map_drop, Cell.number, Cell.map_position_numberFrom,
      List.drop_range', Nat.zero_add, Nat.mul_one]
  have hlength : (e.cells (Cell.number gs)).length =
      min (e.stop - e.start) (gs.length - e.start) := by
    rw [← List.length_map, hpositions, List.length_take, List.length_range']
  rw [hpositions, hlength]
  rcases Nat.le_total (gs.length - e.start) (e.stop - e.start) with hle | hle
  · rw [List.take_range'_of_length_le hle, Nat.min_eq_right hle]
  · rw [List.take_range'_of_length_ge hle, Nat.min_eq_left hle]

end Extent

/-! ## Letters -/

/-- The letter stands in the cell. -/
def Cell.Holds (c : Cell R) (l : Letter R) : Prop :=
  isLetter c.char = true ∧ l = c.letter

instance [DecidableEq R] (c : Cell R) (l : Letter R) : Decidable (c.Holds l) :=
  inferInstanceAs (Decidable (_ ∧ _))

/-- Among the cells of a text one alone holds a letter, for its ordinal tells which. -/
theorem Cell.Holds.eq {gs : List (Glyph R)} {c d : Cell R} {l : Letter R} (hc : c ∈ number gs)
    (hd : d ∈ number gs) (h : c.Holds l) (h' : d.Holds l) : c = d := by
  have hordinals := (increasing_ordinals_numberFrom 0 0 gs).imp Nat.ne_of_lt
  have hindex : c.letterIndex = d.letterIndex := congrArg Letter.index (h.2.symm.trans h'.2)
  apply List.inj_on_of_nodup_map (List.pairwise_map.mpr hordinals) _ _ hindex
  · exact List.mem_filter.mpr ⟨hc, h.1⟩
  · exact List.mem_filter.mpr ⟨hd, h'.1⟩

namespace Token

theorem exists_holds {config : Config R} {excluded : List Extent} {cs : List (Cell R)}
    {l : Letter R} (hl : l ∈ (ofCells config excluded cs).flatMap letters) :
    ∃ c, some c ∈ Extent.cut excluded 0 cs ∧ c.Holds l := by
  rw [ofCells, letters_ofMarks, Mark.letter_mem_iff] at hl
  obtain ⟨c, hc, hletter, rfl⟩ := Mark.letter_mem_ofCells hl
  exact ⟨c, hc, hletter, rfl⟩

/-- **What is skipped leaves no letter.** The extents that are skipped stand apart, and
the tokens are read as if these were all.  A letter comes from a position that they do
not cover; where another extent covers it, that one begins before the range, or where
the reader skips already, with an end that has been passed.  So if none of the extents
reaches into the range from before it and none that begins inside another goes beyond
it, no letter comes from a position that any of them covers. -/
theorem letters_stand_outside_skipped (config : Config R) (gs : List (Glyph R)) (range : Extent)
    (excluded : List Extent) :
    let cells := range.cells (Cell.number gs)
    let tokens := ofCells config excluded cells
    (∃ skipped, Extent.Skips excluded range.start (range.start + cells.length) skipped ∧
      ofCells config skipped cells = tokens ∧
      ∀ l ∈ tokens.flatMap letters, ∃ c ∈ cells, c.Holds l ∧
        (∀ e ∈ skipped, ¬ e.Covers c.position) ∧
        ∀ e ∈ excluded, e.Covers c.position → e.start < range.start ∨
          ∃ f ∈ skipped, f.Covers e.start ∧ f.stop ≤ c.position) ∧
    ((∀ e ∈ excluded, e.start < e.stop → (range.start ≤ e.start ∨ e.stop ≤ range.start) ∧
        ∀ f ∈ excluded, f.Covers e.start → e.stop ≤ f.stop) →
      ∀ l ∈ tokens.flatMap letters, ∀ c ∈ Cell.number gs, c.Holds l →
        ∀ e ∈ excluded, ¬ e.Covers c.position) := by
  intro cells tokens
  obtain ⟨skipped, hskips, hcuts⟩ :=
    Extent.exists_skips excluded 0 (range.map_position_cells gs)
  rw [Nat.max_zero] at hskips
  have hletters : ∀ l ∈ tokens.flatMap letters, ∃ c ∈ cells, c.Holds l ∧
      (∀ e ∈ skipped, ¬ e.Covers c.position) ∧
      ∀ e ∈ excluded, e.Covers c.position → e.start < range.start ∨
        ∃ f ∈ skipped, f.Covers e.start ∧ f.stop ≤ c.position := by
    intro l hl
    obtain ⟨c, hkept, hholds⟩ := exists_holds hl
    have hc := (Extent.mem_of_mem_cut hkept).1
    have hfree := hcuts.not_covers c hkept
    have hposition := List.mem_map_of_mem (f := Cell.position) hc
    rw [range.map_position_cells, List.mem_range'_1] at hposition
    exact ⟨c, hc, hholds, hfree, fun e he => hskips.passed_of_covers he hposition.2 hfree⟩
  refine ⟨⟨skipped, hskips, ?_, hletters⟩, fun hnested l hl d hd hd' e he hcovers => ?_⟩
  · show ofCells config skipped cells = ofCells config excluded cells
    rw [ofCells, ofCells, hcuts.cut_eq]
  · obtain ⟨c, hc, hholds, -, hpassed⟩ := hletters l hl
    have hmem : c ∈ Cell.number gs := List.mem_of_mem_drop (List.mem_of_mem_take hc)
    obtain rfl := Cell.Holds.eq hmem hd hholds hd'
    obtain ⟨hstart, hinside⟩ := hnested e he (Nat.lt_of_le_of_lt hcovers.1 hcovers.2)
    rcases hpassed e he hcovers with hbefore | ⟨f, hf, hbegins, hend⟩
    · have hposition := (Extent.position_of_mem_cells hc).1
      have hlt := hcovers.2
      omega
    · have hstop := hinside f (hskips.mem_excluded hf) hbegins
      have hlt := hcovers.2
      omega

/-- Two extents apart, one inside the first, and one in front of the range. -/
theorem letters_stand_outside_nested :
    let config : Config Rat := Config.standard
    let gs := (Paragraph.plain "abcdefg".toList).glyphs 12
    let excluded : List Extent := [⟨5, 6⟩, ⟨3, 4⟩, ⟨2, 5⟩, ⟨0, 1⟩]
    let letters := (ofCells config excluded (Extent.cells ⟨1, 7⟩ (Cell.number gs))).flatMap letters
    letters.map Letter.char = ['b', 'g'] ∧
      (∀ e ∈ excluded, e.start < e.stop → (1 ≤ e.start ∨ e.stop ≤ 1) ∧
        ∀ f ∈ excluded, f.Covers e.start → e.stop ≤ f.stop) ∧
      ∀ l ∈ letters, ∀ c ∈ Cell.number gs, c.Holds l → ∀ e ∈ excluded, ¬ e.Covers c.position := by
  intro config gs excluded letters
  have hnested : ∀ e ∈ excluded, e.start < e.stop → (1 ≤ e.start ∨ e.stop ≤ 1) ∧
      ∀ f ∈ excluded, f.Covers e.start → e.stop ≤ f.stop := by decide
  exact ⟨by decide +kernel, hnested,
    (letters_stand_outside_skipped config gs ⟨1, 7⟩ excluded).2 hnested⟩

/-- A letter comes from a position that an extent covers: one that begins inside another
one, one that begins with a shorter one, one that begins before the range. -/
theorem covered_letter_is_read :
    let cells := Cell.number ((Paragraph.plain "abc".toList : Paragraph Rat).glyphs 12)
    let ReadsCovered (range : Extent) (excluded : List Extent) : Prop :=
      ∃ l ∈ (ofCells Config.standard excluded (range.cells cells)).flatMap letters,
        ∃ c ∈ cells, c.Holds l ∧ ∃ e ∈ excluded, e.Covers c.position
    ReadsCovered ⟨0, 3⟩ [⟨0, 2⟩, ⟨1, 3⟩] ∧ ReadsCovered ⟨0, 3⟩ [⟨0, 1⟩, ⟨0, 3⟩] ∧
      ReadsCovered ⟨1, 3⟩ [⟨0, 3⟩] := by
  decide +kernel

end Token

end ProseScore
