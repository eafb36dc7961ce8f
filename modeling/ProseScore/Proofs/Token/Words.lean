import Mathlib.Algebra.Ring.Parity
import Mathlib.Tactic.SplitIfs
import ProseScore.Proofs.Config.Symbols
import ProseScore.Scalar.Exact
import ProseScore.Token.Reading

/-!
# Words between separators

The reader goes through cells once, with an open word and a flag for quotes.  Here
its tokens are told by positions alone: a position is muted or not, it separates or
not, and a word is a longest run of positions that do neither and hold a letter.
-/

namespace ProseScore

variable {R : Type}

/-- A stretch of glyphs that is read on its own. -/
structure Passage (R : Type) where
  config : Config R
  glyphs : List (Glyph R)
  start : Nat
  stop : Nat
  start_le_stop : start ≤ stop
  stop_le_length : stop ≤ glyphs.length

namespace Passage

/-- The passage of an extent, which may be reversed or go beyond the last glyph. -/
def ofExtent (config : Config R) (glyphs : List (Glyph R)) (e : Extent) : Passage R where
  config := config
  glyphs := glyphs
  start := min e.start (min e.stop glyphs.length)
  stop := min e.stop glyphs.length
  start_le_stop := Nat.min_le_right _ _
  stop_le_length := Nat.min_le_right _ _

variable (p : Passage R)

/-- The position stands behind an odd number of the quotes of the passage. -/
def Muted (i : Nat) : Prop :=
  Odd (((p.glyphs.take i).drop p.start).countP fun g => g.char = p.config.symbols .quote)

/-- Quotes separate words, and outside quotes white space, rests and loop brackets do. -/
def Separates (i : Nat) : Prop :=
  ∃ g, p.glyphs[i]? = some g ∧ (g.char = p.config.symbols .quote ∨
    ¬ p.Muted i ∧ (g.char = p.config.symbols .rest ∨ isBlank g.char = true ∨
      g.char = p.config.symbols .loopOpen ∨ g.char = p.config.symbols .loopClose))

/-- Some character of the extent is such a one. -/
def Holds (e : Extent) (P : Char → Prop) : Prop :=
  ∃ i g, e.start ≤ i ∧ i < e.stop ∧ p.glyphs[i]? = some g ∧ P g.char

/-- Positions of the passage none of which is muted or separates. -/
structure IsRun (e : Extent) : Prop where
  start_lt_stop : e.start < e.stop
  start_le : p.start ≤ e.start
  stop_le : e.stop ≤ p.stop
  unmuted : ∀ i, e.start ≤ i → i < e.stop → ¬ p.Muted i
  unparted : ∀ i, e.start ≤ i → i < e.stop → ¬ p.Separates i

/-- A run with a letter that is part of no longer run. -/
structure IsWord (e : Extent) : Prop extends p.IsRun e where
  maximal : ∀ f, p.IsRun f → f.start ≤ e.start → e.stop ≤ f.stop → f = e
  letter : p.Holds e fun c => isLetter c = true

/-- The place of a rest symbol outside quotes. -/
structure IsRest (e : Extent) : Prop where
  stop_eq : e.stop = e.start + 1
  start_le : p.start ≤ e.start
  stop_le : e.stop ≤ p.stop
  unmuted : ¬ p.Muted e.start
  symbol : p.Holds e fun c => c = p.config.symbols .rest

/-- The letter at a position.  All letters before it count, from the first glyph on. -/
def letterAt? (i : Nat) : Option (Letter R) :=
  p.glyphs[i]?.bind fun g =>
    if isLetter g.char then
      some ⟨g.char, g.attributes, (p.glyphs.take i).countP fun g => isLetter g.char⟩
    else none

def letters (e : Extent) : List (Letter R) :=
  (List.range' e.start (e.stop - e.start)).filterMap p.letterAt?

/-- The token plays the letters of an extent, and the flags in it are those of the
token. -/
structure Plays (e : Extent) (t : Token R) : Prop where
  kind_eq : (∃ l, p.letters e = [l] ∧ t.kind = .letter l) ∨
    ∃ l l' ls, p.letters e = l :: l' :: ls ∧ t.kind = .chord (l :: l' :: ls) l.attributes
  accent_iff : t.accent = true ↔ p.Holds e fun c => c = p.config.symbols .accent
  random_iff : t.random = true ↔ p.Holds e fun c => c = p.config.symbols .random
  duration_eq : t.duration = p.config.baseDuration

/-- The token at a rest, and the token of a word. -/
inductive Gives : Extent → Token R → Prop
  | rest {e : Extent} : p.IsRest e → Gives e ⟨.rest, false, false, p.config.restDuration⟩
  | word {e : Extent} {t : Token R} : p.IsWord e → p.Plays e t → Gives e t

/-! ## Positions -/

/-- The position is part of a run. -/
def Plain (i : Nat) : Prop :=
  ¬ p.Muted i ∧ ¬ p.Separates i

variable {p}

theorem IsRun.plain {e : Extent} (h : p.IsRun e) {i : Nat} (hi : e.start ≤ i) (hi' : i < e.stop) :
    p.Plain i :=
  ⟨h.unmuted i hi hi', h.unparted i hi hi'⟩

theorem not_muted_start : ¬ p.Muted p.start := by
  rw [Muted, List.drop_eq_nil_of_le (List.length_take_le p.start p.glyphs)]
  exact Nat.not_odd_zero

theorem muted_succ_iff {i : Nat} {g : Glyph R} (hi : p.start ≤ i) (hg : p.glyphs[i]? = some g) :
    p.Muted (i + 1) ↔ if g.char = p.config.symbols .quote then ¬ p.Muted i else p.Muted i := by
  have hlt : i < p.glyphs.length := (List.getElem?_eq_some_iff.mp hg).1
  have htake : (p.glyphs.take (i + 1)).drop p.start = (p.glyphs.take i).drop p.start ++ [g] := by
    rw [List.take_add_one, hg, List.drop_append_of_le_length]
    · rfl
    · rw [List.length_take]
      omega
  rw [Muted, Muted, htake, List.countP_append, List.countP_singleton]
  by_cases hq : g.char = p.config.symbols .quote
  · simp [hq, Nat.odd_add_one]
  · simp [hq]

theorem holds_succ_iff {P : Char → Prop} {k stop : Nat} (hlt : k < stop) {g : Glyph R}
    (hg : p.glyphs[k]? = some g) : p.Holds ⟨k, stop⟩ P ↔ P g.char ∨ p.Holds ⟨k + 1, stop⟩ P := by
  constructor
  · rintro ⟨i, g', hi, hi', hg', hP⟩
    rcases Nat.eq_or_lt_of_le hi with heq | hi
    · have heq : k = i := heq
      subst heq
      obtain rfl : g = g' := Option.some_inj.mp (hg.symm.trans hg')
      exact Or.inl hP
    · exact Or.inr ⟨i, g', hi, hi', hg', hP⟩
  · rintro (hP | ⟨i, g', hi, hi', hg', hP⟩)
    · exact ⟨k, g, Nat.le_refl k, hlt, hg, hP⟩
    · exact ⟨i, g', Nat.le_of_succ_le hi, hi', hg', hP⟩

theorem not_holds_empty (P : Char → Prop) (k : Nat) : ¬ p.Holds ⟨k, k⟩ P := by
  rintro ⟨i, -, hi, hi', -⟩
  exact absurd hi' (Nat.not_lt.mpr hi)

theorem letters_empty (k : Nat) : p.letters ⟨k, k⟩ = [] := by
  simp [letters]

theorem letters_succ {k stop : Nat} (hlt : k < stop) :
    p.letters ⟨k, stop⟩ = (p.letterAt? k).toList ++ p.letters ⟨k + 1, stop⟩ := by
  obtain ⟨n, rfl⟩ := Nat.exists_eq_add_of_lt hlt
  have hcount : k + n + 1 - k = n + 1 := by omega
  have hcount' : k + n + 1 - (k + 1) = n := by omega
  rw [letters, letters, hcount, hcount', List.range'_succ, List.filterMap_cons]
  cases p.letterAt? k <;> rfl

theorem mem_letters_iff {e : Extent} {l : Letter R} :
    l ∈ p.letters e ↔ ∃ i, e.start ≤ i ∧ i < e.stop ∧ p.letterAt? i = some l := by
  simp only [letters, List.mem_filterMap, List.mem_range'_1]
  constructor
  · rintro ⟨i, ⟨hi, hi'⟩, hl⟩
    exact ⟨i, hi, by omega, hl⟩
  · rintro ⟨i, hi, hi', hl⟩
    exact ⟨i, ⟨hi, by omega⟩, hl⟩

theorem letterAt?_eq_some {i : Nat} {g : Glyph R} (hg : p.glyphs[i]? = some g)
    (hletter : isLetter g.char = true) :
    p.letterAt? i = some
      ⟨g.char, g.attributes, (p.glyphs.take i).countP fun g => isLetter g.char⟩ := by
  rw [letterAt?, hg, Option.bind_some, if_pos hletter]

theorem letterAt?_eq_none {i : Nat} {g : Glyph R} (hg : p.glyphs[i]? = some g)
    (hletter : ¬ isLetter g.char = true) : p.letterAt? i = none := by
  rw [letterAt?, hg, Option.bind_some, if_neg hletter]

theorem holds_letter_iff {e : Extent} :
    (p.Holds e fun c => isLetter c = true) ↔ p.letters e ≠ [] := by
  constructor
  · rintro ⟨i, g, hi, hi', hg, hletter⟩
    exact List.ne_nil_of_mem (mem_letters_iff.mpr ⟨i, hi, hi', letterAt?_eq_some hg hletter⟩)
  · intro hne
    obtain ⟨l, hl⟩ := List.exists_mem_of_ne_nil _ hne
    obtain ⟨i, hi, hi', hat⟩ := mem_letters_iff.mp hl
    obtain ⟨g, hg, hletter⟩ := Option.bind_eq_some_iff.mp hat
    split_ifs at hletter with h
    exact ⟨i, g, hi, hi', hg, h⟩

theorem separates_of_quote {i : Nat} {g : Glyph R} (hg : p.glyphs[i]? = some g)
    (hquote : g.char = p.config.symbols .quote) : p.Separates i :=
  ⟨g, hg, Or.inl hquote⟩

/-- Outside quotes the rests and what the reader takes for a gap separate. -/
theorem separates_iff {i : Nat} {g : Glyph R} (hg : p.glyphs[i]? = some g)
    (hquote : ¬ g.char = p.config.symbols .quote) (hmuted : ¬ p.Muted i) :
    p.Separates i ↔ g.char = p.config.symbols .rest ∨ (isBlank g.char ||
      g.char = p.config.symbols .loopOpen || g.char = p.config.symbols .loopClose) = true := by
  simp only [Bool.or_eq_true, decide_eq_true_eq, or_assoc]
  constructor
  · rintro ⟨g', hg', h⟩
    obtain rfl : g = g' := Option.some_inj.mp (hg.symm.trans hg')
    exact (h.resolve_left hquote).2
  · exact fun h => ⟨g, hg, Or.inr ⟨hmuted, h⟩⟩

/-! ## Reading from a position on -/

variable (p)

/-- The cells of the passage from a position on. -/
def cells (k : Nat) : List (Cell R) :=
  ((Cell.number p.glyphs).take p.stop).drop k

/-- What is read from position `k` on: the word that is open there, up to `stop`, and
the tokens behind it. -/
structure ReadsFrom (k : Nat) (r : Word R × List (Token R)) (stop : Nat)
    (extents : List Extent) : Prop where
  le_stop : k ≤ stop
  stop_le : stop ≤ p.stop
  plain : ∀ i, k ≤ i → i < stop → p.Plain i
  ends : stop = p.stop ∨ ¬ p.Plain stop
  letters_eq : r.1.letters = p.letters ⟨k, stop⟩
  accent_iff : r.1.accent = true ↔ p.Holds ⟨k, stop⟩ fun c => c = p.config.symbols .accent
  random_iff : r.1.random = true ↔ p.Holds ⟨k, stop⟩ fun c => c = p.config.symbols .random
  ordered : extents.Pairwise fun e f => e.stop ≤ f.start
  mem_iff : ∀ e, e ∈ extents ↔ stop ≤ e.start ∧ (p.IsRest e ∨ p.IsWord e)
  gives : List.Forall₂ p.Gives extents r.2

variable {p}

theorem cells_cons {k : Nat} (hk : k < p.stop) : ∃ g, p.glyphs[k]? = some g ∧
    p.cells k = ⟨g, k, (p.glyphs.take k).countP fun g => isLetter g.char⟩ :: p.cells (k + 1) := by
  have hlt : k < p.glyphs.length := Nat.lt_of_lt_of_le hk p.stop_le_length
  have hg : p.glyphs[k]? = some p.glyphs[k] := List.getElem?_eq_getElem hlt
  refine ⟨_, hg, ?_⟩
  have hcell := Cell.getElem?_number p.glyphs k
  rw [hg, Option.map_some] at hcell
  have hlength : k < ((Cell.number p.glyphs).take p.stop).length := by
    rw [List.length_take, Cell.length_number]
    omega
  rw [cells, List.drop_eq_getElem_cons hlength, cells]
  congr 1
  rw [← Option.some_inj, ← List.getElem?_eq_getElem, List.getElem?_take_of_lt hk, hcell]

theorem ofExtent_cells (config : Config R) (glyphs : List (Glyph R)) (e : Extent) :
    e.cells (Cell.number glyphs) =
      (ofExtent config glyphs e).cells (ofExtent config glyphs e).start := by
  apply List.ext_getElem?
  intro i
  simp only [Extent.cells, cells, ofExtent, List.getElem?_take, List.getElem?_drop]
  rcases Nat.lt_or_ge i (min e.stop glyphs.length - e.start) with hin | hout
  · have hstart : min e.start (min e.stop glyphs.length) = e.start := by omega
    rw [if_pos (by omega), if_pos (by omega), hstart]
  · have hnone : (Cell.number glyphs)[e.start + i]? = none ∨ ¬ i < e.stop - e.start := by
      rw [List.getElem?_eq_none_iff, Cell.length_number]
      omega
    rw [if_neg (c := min e.start (min e.stop glyphs.length) + i < _) (by omega)]
    rcases hnone with hnone | hnone
    · rw [hnone, ite_self]
    · rw [if_neg hnone]

theorem IsRest.exists_glyph {e : Extent} (h : p.IsRest e) :
    ∃ g, p.glyphs[e.start]? = some g ∧ g.char = p.config.symbols .rest := by
  obtain ⟨i, g, hi, hi', hg, hrest⟩ := h.symbol
  have hstop := h.stop_eq
  obtain rfl : i = e.start := by omega
  exact ⟨g, hg, hrest⟩

theorem IsRest.start_ne {e : Extent} (h : p.IsRest e) {k : Nat} {g : Glyph R}
    (hg : p.glyphs[k]? = some g) (hne : g.char ≠ p.config.symbols .rest) : e.start ≠ k := by
  rintro rfl
  obtain ⟨g', hg', hrest⟩ := h.exists_glyph
  obtain rfl : g = g' := Option.some_inj.mp (hg.symm.trans hg')
  exact hne hrest

theorem IsRest.not_plain {e : Extent} (h : p.IsRest e) : ¬ p.Plain e.start := by
  obtain ⟨g, hg, hrest⟩ := h.exists_glyph
  exact fun hplain => hplain.2 ⟨g, hg, Or.inr ⟨h.unmuted, Or.inl hrest⟩⟩

theorem IsWord.plain_start {e : Extent} (h : p.IsWord e) : p.Plain e.start :=
  h.plain (Nat.le_refl _) h.start_lt_stop

namespace ReadsFrom

variable {k stop : Nat} {r : Word R × List (Token R)} {extents : List Extent}

theorem isRun (h : p.ReadsFrom k r stop extents) (hk : p.start ≤ k) (hlt : k < stop) :
    p.IsRun ⟨k, stop⟩ :=
  ⟨hlt, hk, h.stop_le, fun i hi hi' => (h.plain i hi hi').1, fun i hi hi' => (h.plain i hi hi').2⟩

/-- An open word with letters is a word if it does not begin behind a plain position. -/
theorem isWord (h : p.ReadsFrom k r stop extents) (hk : p.start ≤ k)
    (hleft : k = p.start ∨ ¬ p.Plain (k - 1)) (hne : p.letters ⟨k, stop⟩ ≠ []) :
    p.IsWord ⟨k, stop⟩ := by
  have hletter := holds_letter_iff.mpr hne
  have hlt : k < stop := by
    obtain ⟨i, -, hi, hi', -⟩ := hletter
    exact Nat.lt_of_le_of_lt hi hi'
  refine ⟨h.isRun hk hlt, ?_, hletter⟩
  rintro ⟨start', stop'⟩ hrun hstart hstop
  have hbegins : p.start ≤ start' := hrun.start_le
  have hends : stop' ≤ p.stop := hrun.stop_le
  have hstart : start' ≤ k := hstart
  have hstop : stop ≤ stop' := hstop
  have hfirst : start' = k := by
    -- else the plain position before `k` would be part of the longer run
    by_contra hne
    rcases hleft with rfl | hleft
    · omega
    · exact hleft (hrun.plain (by show start' ≤ k - 1; omega) (by show k - 1 < stop'; omega))
  have hlast : stop' = stop := by
    by_contra hne
    rcases h.ends with rfl | hright
    · omega
    · exact hright (hrun.plain (by show start' ≤ stop; omega) (by show stop < stop'; omega))
  rw [hfirst, hlast]

theorem eq_of_start_lt (h : p.ReadsFrom k r stop extents) (hk : p.start ≤ k) {e : Extent}
    (he : p.IsRest e ∨ p.IsWord e) (hstart : k ≤ e.start) (hlt : e.start < stop) :
    p.IsWord e ∧ e = ⟨k, stop⟩ := by
  have hplain := h.plain e.start hstart hlt
  have hword : p.IsWord e := he.resolve_left fun hrest => hrest.not_plain hplain
  refine ⟨hword, (hword.maximal ⟨k, stop⟩ ?_ hstart ?_).symm⟩
  · exact h.isRun hk (Nat.lt_of_le_of_lt hstart hlt)
  · by_contra hgt
    have hle := hword.stop_le
    rcases h.ends with rfl | hright
    · exact hgt hle
    · exact hright (hword.plain (Nat.le_of_lt hlt) (Nat.lt_of_not_le hgt))

theorem plays (h : p.ReadsFrom k r stop extents) {t : Token R}
    (ht : r.1.token? p.config = some t) : p.Plays ⟨k, stop⟩ t := by
  obtain ⟨kind, hkind, rfl⟩ := Option.map_eq_some_iff.mp ht
  refine ⟨?_, h.accent_iff, h.random_iff, rfl⟩
  rw [← h.letters_eq]
  rw [Word.kind?] at hkind
  split at hkind
  · exact absurd hkind (Option.some_ne_none _).symm
  · rename_i l hl
    exact Or.inl ⟨l, hl, (Option.some_inj.mp hkind).symm⟩
  · rename_i l ls hne hl
    obtain ⟨l', ls, rfl⟩ := List.exists_cons_of_ne_nil hne
    exact Or.inr ⟨l, l', ls, hl, (Option.some_inj.mp hkind).symm⟩

theorem token?_eq_none_iff (h : p.ReadsFrom k r stop extents) :
    r.1.token? p.config = none ↔ p.letters ⟨k, stop⟩ = [] := by
  rw [← h.letters_eq, Word.token?, Option.map_eq_none_iff, Word.kind?]
  split
  · simp [*]
  · simp [*]
  · simp [*]

end ReadsFrom

/-- The tokens from a position on when no word is open there. -/
structure ClosedFrom (p : Passage R) (k : Nat) (tokens : List (Token R)) (extents : List Extent) :
    Prop where
  ordered : extents.Pairwise fun e f => e.stop ≤ f.start
  mem_iff : ∀ e, e ∈ extents ↔ k ≤ e.start ∧ (p.IsRest e ∨ p.IsWord e)
  gives : List.Forall₂ p.Gives extents tokens

namespace ReadsFrom

variable {k stop : Nat} {r : Word R × List (Token R)} {extents : List Extent}

theorem close (h : p.ReadsFrom k r stop extents) (hk : p.start ≤ k)
    (hleft : k = p.start ∨ ¬ p.Plain (k - 1)) :
    ∃ extents, p.ClosedFrom k ((r.1.token? p.config).toList ++ r.2) extents := by
  have hle := h.le_stop
  cases ht : r.1.token? p.config with
  | none =>
      refine ⟨extents, h.ordered, fun e => ?_, h.gives⟩
      rw [h.mem_iff]
      refine ⟨fun he => ⟨Nat.le_trans hle he.1, he.2⟩, fun he => ⟨?_, he.2⟩⟩
      by_contra hlt
      obtain ⟨hword, rfl⟩ := h.eq_of_start_lt hk he.2 he.1 (Nat.lt_of_not_le hlt)
      exact holds_letter_iff.mp hword.letter (h.token?_eq_none_iff.mp ht)
  | some t =>
      have hne : p.letters ⟨k, stop⟩ ≠ [] := fun hnil =>
        absurd (ht.symm.trans (h.token?_eq_none_iff.mpr hnil)) (Option.some_ne_none t)
      have hword := h.isWord hk hleft hne
      refine ⟨⟨k, stop⟩ :: extents, ?_, fun e => ?_, ?_⟩
      · apply List.Pairwise.cons _ h.ordered
        exact fun e he => ((h.mem_iff e).mp he).1
      · rw [List.mem_cons, h.mem_iff]
        constructor
        · rintro (rfl | he)
          · exact ⟨Nat.le_refl k, Or.inr hword⟩
          · exact ⟨Nat.le_trans hle he.1, he.2⟩
        · rintro ⟨hstart, he⟩
          rcases Nat.lt_or_ge e.start stop with hlt | hge
          · exact Or.inl (h.eq_of_start_lt hk he hstart hlt).2
          · exact Or.inr ⟨hge, he⟩
      · exact List.Forall₂.cons (.word hword (h.plays ht)) h.gives

end ReadsFrom

namespace ClosedFrom

variable {k : Nat} {tokens : List (Token R)} {extents : List Extent}

/-- At a position that is not plain no word is open. -/
theorem readsFrom (h : p.ClosedFrom k tokens extents) (hk : k ≤ p.stop)
    (hends : k = p.stop ∨ ¬ p.Plain k) : p.ReadsFrom k ({}, tokens) k extents where
  le_stop := Nat.le_refl k
  stop_le := hk
  plain := fun i hi hi' => absurd hi' (Nat.not_lt.mpr hi)
  ends := hends
  letters_eq := (letters_empty k).symm
  accent_iff := by simp [not_holds_empty]
  random_iff := by simp [not_holds_empty]
  ordered := h.ordered
  mem_iff := h.mem_iff
  gives := h.gives

/-- Nothing begins at a position that is neither plain nor a rest. -/
theorem skip (h : p.ClosedFrom (k + 1) tokens extents) (hplain : ¬ p.Plain k)
    (hrest : ∀ e, p.IsRest e → e.start ≠ k) : p.ClosedFrom k tokens extents where
  ordered := h.ordered
  mem_iff := by
    intro e
    rw [h.mem_iff]
    refine ⟨fun he => ⟨Nat.le_of_succ_le he.1, he.2⟩, fun he => ⟨?_, he.2⟩⟩
    apply Nat.lt_of_le_of_ne he.1
    rintro rfl
    rcases he.2 with he | he
    · exact hrest e he rfl
    · exact hplain he.plain_start
  gives := h.gives

theorem rest (h : p.ClosedFrom (k + 1) tokens extents) (hrest : p.IsRest ⟨k, k + 1⟩) :
    p.ClosedFrom k (Token.silent p.config :: tokens) (⟨k, k + 1⟩ :: extents) where
  ordered := List.Pairwise.cons (fun e he => ((h.mem_iff e).mp he).1) h.ordered
  mem_iff := by
    intro e
    rw [List.mem_cons, h.mem_iff]
    constructor
    · rintro (rfl | he)
      · exact ⟨Nat.le_refl k, Or.inl hrest⟩
      · exact ⟨Nat.le_of_succ_le he.1, he.2⟩
    · rintro ⟨hstart, he⟩
      rcases Nat.eq_or_lt_of_le hstart with rfl | hlt
      · have hat : p.IsRest e := he.resolve_right fun hword =>
          hrest.not_plain hword.plain_start
        have hstop := hat.stop_eq
        exact Or.inl (by rw [← hstop])
      · exact Or.inr ⟨hlt, he⟩
  gives := List.Forall₂.cons (.rest hrest) h.gives

end ClosedFrom

theorem closedFrom_stop : p.ClosedFrom p.stop [] [] where
  ordered := List.Pairwise.nil
  mem_iff := by
    intro e
    refine iff_of_false List.not_mem_nil ?_
    rintro ⟨hstart, hrest | hword⟩
    · have := hrest.stop_eq
      have := hrest.stop_le
      omega
    · have := hword.start_lt_stop
      have := hword.stop_le
      omega
  gives := List.Forall₂.nil

namespace ReadsFrom

variable {k stop : Nat} {r : Word R × List (Token R)} {extents : List Extent}

/-- A muted position adds nothing, and no word is open behind it. -/
theorem mute (h : p.ReadsFrom (k + 1) r stop extents) (hmuted : p.Muted k)
    (hmuted' : p.Muted (k + 1)) : p.ReadsFrom k r k extents := by
  have hstop : stop = k + 1 := by
    rcases Nat.eq_or_lt_of_le h.le_stop with heq | hlt
    · exact heq.symm
    · exact absurd hmuted' (h.plain (k + 1) (Nat.le_refl _) hlt).1
  subst hstop
  have hplain : ¬ p.Plain k := fun hplain => hplain.1 hmuted
  have hskip : p.ClosedFrom k r.2 extents := by
    apply ClosedFrom.skip ⟨h.ordered, h.mem_iff, h.gives⟩ hplain
    rintro e hrest rfl
    exact hrest.unmuted hmuted
  exact {
    hskip.readsFrom (Nat.le_of_succ_le h.stop_le) (Or.inr hplain) with
    letters_eq := h.letters_eq.trans ((letters_empty _).trans (letters_empty k).symm)
    accent_iff := h.accent_iff.trans (iff_of_false (not_holds_empty _ _) (not_holds_empty _ _))
    random_iff := h.random_iff.trans (iff_of_false (not_holds_empty _ _) (not_holds_empty _ _)) }

theorem extend (h : p.ReadsFrom (k + 1) r stop extents) (hplain : p.Plain k) {g : Glyph R}
    (hg : p.glyphs[k]? = some g) {w : Word R}
    (hletters : w.letters = (p.letterAt? k).toList ++ r.1.letters)
    (haccent : w.accent = true ↔ g.char = p.config.symbols .accent ∨ r.1.accent = true)
    (hrandom : w.random = true ↔ g.char = p.config.symbols .random ∨ r.1.random = true) :
    p.ReadsFrom k (w, r.2) stop extents where
  le_stop := Nat.le_of_succ_le h.le_stop
  stop_le := h.stop_le
  plain := by
    intro i hi hi'
    rcases Nat.eq_or_lt_of_le hi with rfl | hi
    · exact hplain
    · exact h.plain i hi hi'
  ends := h.ends
  letters_eq := by rw [letters_succ h.le_stop, ← h.letters_eq, hletters]
  accent_iff := by rw [holds_succ_iff h.le_stop hg, ← h.accent_iff, haccent]
  random_iff := by rw [holds_succ_iff h.le_stop hg, ← h.random_iff, hrandom]
  ordered := h.ordered
  mem_iff := h.mem_iff
  gives := h.gives

theorem gap (h : p.ReadsFrom (k + 1) r stop extents) (hk : p.start ≤ k)
    (hplain : ¬ p.Plain k) (hrest : ∀ e, p.IsRest e → e.start ≠ k) :
    ∃ extents, p.ReadsFrom k ({}, (r.1.token? p.config).toList ++ r.2) k extents := by
  obtain ⟨extents, hclosed⟩ := h.close (Nat.le_succ_of_le hk) (Or.inr hplain)
  have hle : k ≤ p.stop := Nat.le_of_succ_le (Nat.le_trans h.le_stop h.stop_le)
  exact ⟨extents, (hclosed.skip hplain hrest).readsFrom hle (Or.inr hplain)⟩

theorem rest (h : p.ReadsFrom (k + 1) r stop extents) (hk : p.start ≤ k)
    (hrest : p.IsRest ⟨k, k + 1⟩) :
    ∃ extents, p.ReadsFrom k
      ({}, Token.silent p.config :: ((r.1.token? p.config).toList ++ r.2)) k extents := by
  obtain ⟨extents, hclosed⟩ := h.close (Nat.le_succ_of_le hk) (Or.inr hrest.not_plain)
  have hle : k ≤ p.stop := Nat.le_of_succ_le (Nat.le_trans h.le_stop h.stop_le)
  exact ⟨_, (hclosed.rest hrest).readsFrom hle (Or.inr hrest.not_plain)⟩

end ReadsFrom

/-! ## Accepted configurations -/

section Accepted

variable [Scalar R] {settings : Settings R}

/-- At a plain position the mark, if there is one, goes into the open word. -/
theorem ReadsFrom.mark (hconfig : settings.config = .ok p.config) {k stop : Nat}
    {ms : List (Mark R)} {extents : List Extent} {g : Glyph R}
    (h : p.ReadsFrom (k + 1) (Token.read p.config ms) stop extents)
    (hg : p.glyphs[k]? = some g) (hplain : p.Plain k)
    (hrest : ¬ g.char = p.config.symbols .rest)
    (hgap : ¬ (isBlank g.char || g.char = p.config.symbols .loopOpen ||
      g.char = p.config.symbols .loopClose) = true) :
    p.ReadsFrom k (Token.read p.config ((Mark.ofCell? p.config.symbols
      ⟨g, k, (p.glyphs.take k).countP fun g => isLetter g.char⟩).toList ++ ms)) stop extents := by
  have haccent : isLetter (p.config.symbols .accent) = false :=
    (Settings.plain_symbol hconfig .accent).1
  have hrandom : isLetter (p.config.symbols .random) = false :=
    (Settings.plain_symbol hconfig .random).1
  have hne : p.config.symbols .accent ≠ p.config.symbols .random :=
    Settings.symbol_ne hconfig (by decide) (by decide) (by decide)
  rw [Mark.ofCell?, if_neg hrest, if_neg hgap]
  by_cases hletter : isLetter g.char = true
  · have hneAccent : g.char ≠ p.config.symbols .accent := fun heq => by
      simp [heq, haccent] at hletter
    have hneRandom : g.char ≠ p.config.symbols .random := fun heq => by
      simp [heq, hrandom] at hletter
    rw [if_pos hletter]
    apply h.extend hplain hg
    · rw [letterAt?_eq_some hg hletter]
      rfl
    · exact (or_iff_right hneAccent).symm
    · exact (or_iff_right hneRandom).symm
  · have hsame : (Token.read p.config ms).1.letters =
        (p.letterAt? k).toList ++ (Token.read p.config ms).1.letters := by
      rw [letterAt?_eq_none hg hletter]
      rfl
    rw [if_neg hletter]
    by_cases hisAccent : g.char = p.config.symbols .accent
    · rw [if_pos hisAccent]
      apply h.extend (w := { (Token.read p.config ms).1 with accent := true }) hplain hg hsame
      · exact iff_of_true rfl (Or.inl hisAccent)
      · exact (or_iff_right (hisAccent ▸ hne)).symm
    · rw [if_neg hisAccent]
      by_cases hisRandom : g.char = p.config.symbols .random
      · rw [if_pos hisRandom]
        apply h.extend (w := { (Token.read p.config ms).1 with random := true }) hplain hg hsame
        · exact (or_iff_right hisAccent).symm
        · exact iff_of_true rfl (Or.inl hisRandom)
      · rw [if_neg hisRandom]
        apply h.extend hplain hg hsame
        · exact (or_iff_right hisAccent).symm
        · exact (or_iff_right hisRandom).symm

/-- Outside quotes a cell that is no quote is a rest, a gap or part of the open word. -/
theorem ReadsFrom.cell (hconfig : settings.config = .ok p.config) {k stop : Nat}
    {ms : List (Mark R)} {extents : List Extent} {g : Glyph R}
    (h : p.ReadsFrom (k + 1) (Token.read p.config ms) stop extents) (hk : p.start ≤ k)
    (hg : p.glyphs[k]? = some g) (hmuted : ¬ p.Muted k)
    (hquote : ¬ g.char = p.config.symbols .quote) :
    ∃ stop extents, p.ReadsFrom k (Token.read p.config ((Mark.ofCell? p.config.symbols
      ⟨g, k, (p.glyphs.take k).countP fun g => isLetter g.char⟩).toList ++ ms)) stop extents := by
  have hlt : k < p.stop := Nat.le_trans h.le_stop h.stop_le
  have hsep := separates_iff hg hquote hmuted
  by_cases hrest : g.char = p.config.symbols .rest
  · rw [Mark.ofCell?, if_pos hrest]
    refine ⟨k, h.rest hk ?_⟩
    exact ⟨rfl, hk, hlt, hmuted, k, g, Nat.le_refl k, Nat.lt_succ_self k, hg, hrest⟩
  by_cases hgap : (isBlank g.char || g.char = p.config.symbols .loopOpen ||
    g.char = p.config.symbols .loopClose) = true
  · rw [Mark.ofCell?, if_neg hrest, if_pos hgap]
    have hplain : ¬ p.Plain k := fun hplain => hplain.2 (hsep.mpr (Or.inr hgap))
    exact ⟨k, h.gap hk hplain fun e he => he.start_ne hg hrest⟩
  · have hplain : p.Plain k := ⟨hmuted, fun h => (hsep.mp h).elim hrest hgap⟩
    exact ⟨stop, extents, h.mark hconfig hg hplain hrest hgap⟩

/-- The reader, from the last position back to the first. -/
theorem exists_readsFrom (hconfig : settings.config = .ok p.config) {k : Nat}
    (hk : p.start ≤ k) (hstop : k ≤ p.stop) {muted : Bool} (hmuted : muted = true ↔ p.Muted k) :
    ∃ stop extents, p.ReadsFrom k (Token.read p.config
      (Mark.ofCells p.config.symbols muted ((p.cells k).map some))) stop extents := by
  have hquoteRest : p.config.symbols .quote ≠ p.config.symbols .rest :=
    Settings.symbol_ne hconfig (by decide) (by decide) (by decide)
  -- the flag is generalised, for a quote at `k` turns it over for what is behind
  induction hstop using Nat.decreasingInduction generalizing muted with
  | self =>
      have hnil : p.cells p.stop = [] := by
        rw [cells, List.drop_eq_nil_of_le (List.length_take_le _ _)]
      rw [hnil]
      exact ⟨p.stop, [], closedFrom_stop.readsFrom (Nat.le_refl _) (Or.inl rfl)⟩
  | of_succ k hlt ih =>
      obtain ⟨g, hg, hcells⟩ := cells_cons hlt
      have hstep := muted_succ_iff hk hg
      rw [hcells, List.map_cons, Mark.ofCells]
      by_cases hquote : g.char = p.config.symbols .quote
      · rw [if_pos hquote] at hstep ⊢
        have hbehind : (!muted) = true ↔ p.Muted (k + 1) := by
          rw [hstep, ← hmuted, Bool.not_eq_true', Bool.not_eq_true]
        obtain ⟨stop, extents, h⟩ := ih (Nat.le_succ_of_le hk) hbehind
        have hplain : ¬ p.Plain k := fun hplain => hplain.2 (separates_of_quote hg hquote)
        exact ⟨k, h.gap hk hplain fun e he => he.start_ne hg (hquote ▸ hquoteRest)⟩
      rw [if_neg hquote] at hstep ⊢
      obtain ⟨stop, extents, h⟩ := ih (Nat.le_succ_of_le hk) (hmuted.trans hstep.symm)
      cases muted with
      | true =>
          have hat : p.Muted k := hmuted.mp rfl
          exact ⟨k, extents, h.mute hat (hstep.mpr hat)⟩
      | false =>
          have hat : ¬ p.Muted k := fun hat => Bool.false_ne_true (hmuted.mpr hat)
          rw [if_neg Bool.false_ne_true]
          exact h.cell hconfig hk hg hat hquote

end Accepted
end Passage

open Passage in
/-- The tokens of a stretch of glyphs are, in the order of the glyphs, the rests outside
quotes and the words, each for its own extent and nothing else. -/
theorem Token.ofCells_gives [Scalar R] {settings : Settings R} {config : Config R}
    (hconfig : settings.config = .ok config) (glyphs : List (Glyph R)) (range : Extent) :
    ∃ extents : List Extent, extents.Pairwise (fun e f => e.stop ≤ f.start) ∧
      (∀ e, e ∈ extents ↔ (ofExtent config glyphs range).IsRest e ∨
        (ofExtent config glyphs range).IsWord e) ∧
      List.Forall₂ (ofExtent config glyphs range).Gives extents
        (Token.ofCells config [] (range.cells (Cell.number glyphs))) := by
  have hunmuted : false = true ↔ (ofExtent config glyphs range).Muted _ :=
    iff_of_false Bool.false_ne_true not_muted_start
  obtain ⟨stop, extents, h⟩ := exists_readsFrom (p := ofExtent config glyphs range) hconfig
    (Nat.le_refl _) (start_le_stop _) hunmuted
  obtain ⟨extents, hordered, hmem, hgives⟩ := h.close (Nat.le_refl _) (Or.inl rfl)
  refine ⟨extents, hordered, fun e => ?_, ?_⟩
  · rw [hmem, and_iff_right_iff_imp]
    rintro (hrest | hword)
    · exact hrest.start_le
    · exact hword.start_le
  · rw [Token.ofCells, Extent.cut_nil fun c _ => Nat.zero_le _, ofExtent_cells]
    exact hgives

/-- The range begins inside a word, goes beyond the last glyph and has a muted letter. -/
theorem Token.ofCells_gives_behind_quotes :
    let settings : Settings Rat := {}
    let glyphs := (Paragraph.plain "ab\" c/\"d!e?/ f".toList).glyphs 12
    let a : Attributes Rat := .plain 12
    settings.config = .ok settings.fill ∧
      ∃ extents : List Extent, extents.Pairwise (fun e f => e.stop ≤ f.start) ∧
        (∀ e, e ∈ extents ↔ (Passage.ofExtent settings.fill glyphs ⟨1, 40⟩).IsRest e ∨
          (Passage.ofExtent settings.fill glyphs ⟨1, 40⟩).IsWord e) ∧
        List.Forall₂ (Passage.ofExtent settings.fill glyphs ⟨1, 40⟩).Gives extents
          [⟨.letter ⟨'b', a, 1⟩, false, false, 34 / 100⟩,
            ⟨.chord [⟨'d', a, 3⟩, ⟨'e', a, 4⟩] a, true, true, 34 / 100⟩,
            ⟨.rest, false, false, 2⟩, ⟨.letter ⟨'f', a, 5⟩, false, false, 34 / 100⟩] := by
  intro settings glyphs a
  have hconfig : settings.config = .ok settings.fill := Settings.config_empty_exact
  have htokens : Token.ofCells settings.fill [] ((⟨1, 40⟩ : Extent).cells (Cell.number glyphs)) =
      [⟨.letter ⟨'b', a, 1⟩, false, false, 34 / 100⟩,
        ⟨.chord [⟨'d', a, 3⟩, ⟨'e', a, 4⟩] a, true, true, 34 / 100⟩,
        ⟨.rest, false, false, 2⟩, ⟨.letter ⟨'f', a, 5⟩, false, false, 34 / 100⟩] := by
    decide +kernel
  refine ⟨hconfig, ?_⟩
  rw [← htokens]
  exact Token.ofCells_gives hconfig glyphs ⟨1, 40⟩

end ProseScore
