import ProseScore.Proofs.Region.Brackets
import ProseScore.Token.Reading

/-!
# Where tokens part

A word ends at a loop bracket outside quotes, so cells that meet at one are read
apart: the tokens of both stretches are those of the first one followed by those
of the second.  Cells that have been cut out leave a gap and no more.
-/

namespace ProseScore

variable {R : Type}

/-- A word ends at the mark. -/
def Mark.Parts (m : Mark R) : Prop :=
  m = .gap ∨ m = .rest

theorem Mark.ofCells_muted {symbols : Symbols} {cs : List (Cell R)}
    (h : symbols .quote ∉ Cell.text cs) : Mark.ofCells symbols true (cs.map some) = [] := by
  induction cs with
  | nil => rfl
  | cons c cs ih =>
      have hc : c.char ≠ symbols .quote := fun hc => h (hc ▸ List.mem_cons_self)
      rw [List.map_cons, Mark.ofCells, if_neg hc, if_pos rfl,
        ih fun hcs => h (List.mem_cons_of_mem c.char hcs)]

namespace Token

theorem ofMarks_gap_cons (config : Config R) (ms : List (Mark R)) :
    ofMarks config (.gap :: ms) = ofMarks config ms := by
  have h := ofMarks_append_gap config [] ms
  exact h

theorem ofMarks_append_cons (config : Config R) (xs ys : List (Mark R)) {m : Mark R}
    (hm : m.Parts) :
    ofMarks config (xs ++ m :: ys) = ofMarks config xs ++ ofMarks config (m :: ys) := by
  rcases hm with rfl | rfl
  · rw [ofMarks_append_gap, ofMarks_gap_cons]
  · have hrest := ofMarks_append_rest config [] ys
    rw [List.nil_append] at hrest
    rw [ofMarks_append_rest, hrest]
    rfl

theorem ofMarks_concat_append (config : Config R) (xs ys : List (Mark R)) {m : Mark R}
    (hm : m.Parts) :
    ofMarks config ((xs ++ [m]) ++ ys) = ofMarks config (xs ++ [m]) ++ ofMarks config ys := by
  rw [List.append_assoc, List.singleton_append]
  rcases hm with rfl | rfl
  · rw [ofMarks_append_gap, ofMarks_append_gap]
    rw [show ofMarks config ([] : List (Mark R)) = [] from rfl, List.append_nil]
  · rw [ofMarks_append_rest, ofMarks_append_rest, List.append_assoc, List.cons_append]
    rfl

end Token

/-- A loop bracket that is not used for quotes, too. -/
def Cell.IsBracket (symbols : Symbols) (c : Cell R) : Prop :=
  c.char ≠ symbols .quote ∧ (c.char = symbols .loopOpen ∨ c.char = symbols .loopClose)

theorem Cell.IsBracket.exists_mark {symbols : Symbols} {c : Cell R} (h : c.IsBracket symbols) :
    ∃ m : Mark R, m.Parts ∧ ∀ cs,
      Mark.ofCells symbols false (some c :: cs) = m :: Mark.ofCells symbols false cs := by
  obtain ⟨hq, hbracket⟩ := h
  by_cases hr : c.char = symbols .rest
  · refine ⟨.rest, Or.inr rfl, fun cs => ?_⟩
    rw [Mark.ofCells, if_neg hq, Mark.ofCell?, if_pos hr]
    rfl
  · refine ⟨.gap, Or.inl rfl, fun cs => ?_⟩
    have hgap : (isBlank c.char || decide (c.char = symbols .loopOpen) ||
        decide (c.char = symbols .loopClose)) = true := by
      simpa [or_assoc] using Or.inr hbracket
    rw [Mark.ofCells, if_neg hq, Mark.ofCell?, if_neg hr, if_pos hgap]
    rfl

namespace Extent

/-- No extent begins at the cell, unless it is empty. -/
def Clear (excluded : List Extent) (c : Cell R) : Prop :=
  ∀ e ∈ excluded, e.start = c.position → e.stop ≤ c.position

theorem find?_eq_none_of_clear {excluded : List Extent} {c : Cell R} (h : Clear excluded c) :
    excluded.find? (fun e => e.start = c.position ∧ c.position < e.stop) = none := by
  rw [List.find?_eq_none]
  intro e he hbegins
  obtain ⟨hstart, hlt⟩ := of_decide_eq_true hbegins
  exact absurd hlt (Nat.not_lt.mpr (h e he hstart))

theorem cut_append_of_clear {excluded : List Extent} {xs : List (Cell R)}
    (h : ∀ c ∈ xs, Clear excluded c) (ys : List (Cell R)) :
    cut excluded 0 (xs ++ ys) = xs.map some ++ cut excluded 0 ys := by
  induction xs with
  | nil => rfl
  | cons c xs ih =>
      have hc := find?_eq_none_of_clear (h c List.mem_cons_self)
      have hxs := ih fun d hd => h d (List.mem_cons_of_mem c hd)
      rw [List.cons_append, cut, if_neg (Nat.not_lt_zero _), hc]
      simp only [hxs, List.map_cons, List.cons_append]

/-- Behind the extent nothing is skipped any more. -/
theorem cut_eq_cut_zero {excluded : List Extent} {resume : Nat} {cs : List (Cell R)}
    (h : ∀ c ∈ cs, resume ≤ c.position) : cut excluded resume cs = cut excluded 0 cs := by
  induction cs with
  | nil => rfl
  | cons c cs ih =>
      have hc := Nat.not_lt.mpr (h c List.mem_cons_self)
      rw [cut, cut, if_neg hc, if_neg (Nat.not_lt_zero _),
        ih fun d hd => h d (List.mem_cons_of_mem c hd)]

theorem cut_append_of_lt {excluded : List Extent} {resume : Nat} {xs ys : List (Cell R)}
    (hxs : ∀ c ∈ xs, c.position < resume) (hys : ∀ c ∈ ys, resume ≤ c.position) :
    cut excluded resume (xs ++ ys) = cut excluded 0 ys := by
  induction xs with
  | nil => exact cut_eq_cut_zero hys
  | cons c xs ih =>
      rw [List.cons_append, cut, if_pos (hxs c List.mem_cons_self)]
      exact ih fun d hd => hxs d (List.mem_cons_of_mem c hd)

end Extent

namespace Token

theorem ofCells_nil (config : Config R) (cs : List (Cell R)) :
    ofCells config [] cs = ofMarks config (Mark.ofCells config.symbols false (cs.map some)) := by
  rw [ofCells, Extent.cut_nil fun c _ => Nat.zero_le c.position]

section

variable {config : Config R} {xs ys : List (Cell R)} {c : Cell R}

/-- A stretch that ends with a bracket is read on its own, whatever is cut out
behind it. -/
theorem ofCells_concat_append {excluded : List Extent} (hc : c.IsBracket config.symbols)
    (heven : Even ((Cell.text (xs ++ [c])).count (config.symbols .quote)))
    (hclear : ∀ d ∈ xs ++ [c], Extent.Clear excluded d) :
    ofCells config excluded ((xs ++ [c]) ++ ys) =
      ofCells config [] (xs ++ [c]) ++ ofCells config excluded ys := by
  have hxs : Even ((Cell.text xs).count (config.symbols .quote)) := by
    have htext : Cell.text (xs ++ [c]) = Cell.text xs ++ [c.char] := List.map_append
    rwa [htext, List.count_append, List.count_singleton, if_neg (by simpa using hc.1),
      Nat.add_zero] at heven
  have hmuted := (Mark.mutedBehind_eq_self_iff false xs).mpr hxs
  obtain ⟨m, hm, hmark⟩ := hc.exists_mark
  have hmarks (rest : List (Option (Cell R))) :
      Mark.ofCells config.symbols false ((xs ++ [c]).map some ++ rest) =
        (Mark.ofCells config.symbols false (xs.map some) ++ [m]) ++
          Mark.ofCells config.symbols false rest := by
    rw [List.map_append, List.map_singleton, List.append_assoc, List.singleton_append,
      Mark.ofCells_append, hmuted, hmark, List.append_assoc, List.singleton_append]
  -- The stretch alone and the stretch with what stands behind it give the same marks.
  have hend := hmarks []
  rw [List.append_nil, Mark.ofCells, List.append_nil] at hend
  rw [ofCells_nil, hend, ofCells, Extent.cut_append_of_clear hclear, hmarks,
    ofMarks_concat_append config _ _ hm]
  rfl

theorem ofCells_append_cons (hc : c.IsBracket config.symbols)
    (heven : Even ((Cell.text xs).count (config.symbols .quote))) :
    ofCells config [] (xs ++ c :: ys) = ofCells config [] xs ++ ofCells config [] (c :: ys) := by
  have hmuted := (Mark.mutedBehind_eq_self_iff false xs).mpr heven
  obtain ⟨m, hm, hmark⟩ := hc.exists_mark
  rw [ofCells_nil, ofCells_nil, ofCells_nil, List.map_append, List.map_cons, Mark.ofCells_append,
    hmuted, hmark, ofMarks_append_cons config _ _ hm]

/-- What is cut out in front leaves nothing to be read. -/
theorem ofCells_cut {excluded : List Extent} {e : Extent} (he : e ∈ excluded)
    (hfirst : ∀ e' ∈ excluded, e'.start = e.start → e'.start < e'.stop → e'.stop = e.stop)
    (hc : c.position = e.start) (hlt : e.start < e.stop)
    (hxs : ∀ d ∈ xs, d.position < e.stop) (hys : ∀ d ∈ ys, e.stop ≤ d.position) :
    ofCells config excluded (c :: (xs ++ ys)) = ofCells config excluded ys := by
  obtain ⟨e', hfind⟩ : ∃ e', excluded.find?
      (fun e => e.start = c.position ∧ c.position < e.stop) = some e' := by
    rw [← Option.isSome_iff_exists, List.find?_isSome]
    exact ⟨e, he, decide_eq_true ⟨hc.symm, hc ▸ hlt⟩⟩
  have hbegins : e'.start = c.position ∧ c.position < e'.stop := by
    simpa using List.find?_some hfind
  have hstop : e'.stop = e.stop :=
    hfirst e' (List.mem_of_find?_eq_some hfind) (hbegins.1.trans hc) (hbegins.1 ▸ hbegins.2)
  rw [ofCells, Extent.cut, if_neg (Nat.not_lt_zero _), hfind]
  simp only [hstop]
  rw [Extent.cut_append_of_lt hxs hys, Mark.ofCells, ofMarks_gap_cons]
  rfl

end

end Token

end ProseScore
