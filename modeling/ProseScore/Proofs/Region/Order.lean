import Mathlib.Data.List.Pairwise
import Mathlib.Data.List.Range
import Mathlib.Order.Monotone.Basic
import ProseScore.Region.Basic

/-!
# The order of regions

The scan finds pairs of brackets in the order of their right ones.  Of two pairs,
the later one begins behind the earlier one or encloses it, for the brackets that
wait for a partner stand on a stack.  The outermost pairs do not enclose each
other, so they stand in the text one behind the other.
-/

namespace ProseScore

variable {R : Type}

theorem Cell.map_position_numberFrom (position letters : Nat) (gs : List (Glyph R)) :
    (numberFrom position letters gs).map Cell.position = List.range' position gs.length := by
  induction gs generalizing position letters with
  | nil => rfl
  | cons g gs ih => rw [numberFrom, List.map_cons, ih, List.length_cons, List.range'_succ]

theorem Cell.increasing_positions_number (gs : List (Glyph R)) :
    ((number gs).map Cell.position).Pairwise (· < ·) := by
  rw [number, map_position_numberFrom]
  exact List.pairwise_lt_range'

namespace Region

/-- Left brackets wait for a partner, the latest first, before cells that stand in
order. -/
structure Stacked (waiting : List Nat) (cs : List (Cell R)) : Prop where
  increasing : (cs.map Cell.position).Pairwise (· < ·)
  decreasing : waiting.Pairwise (· > ·)
  waiting_lt : ∀ w ∈ waiting, ∀ x ∈ cs.map Cell.position, w < x

namespace Stacked

variable {waiting : List Nat} {left : Nat} {c : Cell R} {cs : List (Cell R)}

theorem of_nil (h : (cs.map Cell.position).Pairwise (· < ·)) : Stacked [] cs :=
  ⟨h, List.Pairwise.nil, fun _ hw => absurd hw List.not_mem_nil⟩

theorem lt_later (h : Stacked waiting (c :: cs)) : ∀ x ∈ cs.map Cell.position, c.position < x :=
  (List.pairwise_cons.mp h.increasing).1

theorem skip (h : Stacked waiting (c :: cs)) : Stacked waiting cs :=
  ⟨(List.pairwise_cons.mp h.increasing).2, h.decreasing,
    fun w hw x hx => h.waiting_lt w hw x (List.mem_cons_of_mem _ hx)⟩

theorem push (h : Stacked waiting (c :: cs)) : Stacked (c.position :: waiting) cs where
  increasing := h.skip.increasing
  decreasing := List.pairwise_cons.mpr
    ⟨fun w hw => h.waiting_lt w hw c.position List.mem_cons_self, h.decreasing⟩
  waiting_lt := by
    intro w hw x hx
    rcases List.mem_cons.mp hw with rfl | hw
    · exact h.lt_later x hx
    · exact h.skip.waiting_lt w hw x hx

theorem pop (h : Stacked (left :: waiting) (c :: cs)) : Stacked waiting cs :=
  ⟨h.skip.increasing, (List.pairwise_cons.mp h.decreasing).2,
    fun w hw => h.skip.waiting_lt w (List.mem_cons_of_mem _ hw)⟩

end Stacked

variable {symbols : Symbols} {muted : Bool} {waiting : List Nat} {cs : List (Cell R)}

theorem pairs_cons (symbols : Symbols) (muted : Bool) (waiting : List Nat) (c : Cell R)
    (cs : List (Cell R)) :
    pairs symbols muted waiting (c :: cs) =
      if c.char = symbols .quote then pairs symbols (!muted) waiting cs
      else if muted then pairs symbols muted waiting cs
      else if c.char = symbols .loopOpen then pairs symbols muted (c.position :: waiting) cs
      else if c.char = symbols .loopClose then
        match waiting with
        | [] => pairs symbols muted [] cs
        | left :: waiting => (left, c.position) :: pairs symbols muted waiting cs
      else pairs symbols muted waiting cs := rfl

/-- The left bracket of a pair has been waiting or is found on the way, and the
right one is found behind it. -/
theorem bounds_of_mem_pairs (hstack : Stacked waiting cs) {p : Nat × Nat}
    (h : p ∈ pairs symbols muted waiting cs) :
    (p.1 ∈ waiting ∨ p.1 ∈ cs.map Cell.position) ∧ p.2 ∈ cs.map Cell.position ∧ p.1 < p.2 := by
  induction cs generalizing muted waiting with
  | nil => exact absurd h List.not_mem_nil
  | cons c cs ih =>
      rw [List.map_cons]
      have hskip {muted : Bool} (h : p ∈ pairs symbols muted waiting cs) :
          (p.1 ∈ waiting ∨ p.1 ∈ c.position :: cs.map Cell.position) ∧
            p.2 ∈ c.position :: cs.map Cell.position ∧ p.1 < p.2 := by
        obtain ⟨hleft, hright, hlt⟩ := ih hstack.skip h
        exact ⟨hleft.imp_right (List.mem_cons_of_mem _), List.mem_cons_of_mem _ hright, hlt⟩
      rw [pairs_cons] at h
      split_ifs at h
      · exact hskip h
      · exact hskip h
      · obtain ⟨hleft, hright, hlt⟩ := ih hstack.push h
        refine ⟨?_, List.mem_cons_of_mem _ hright, hlt⟩
        rcases hleft with hleft | hleft
        · rcases List.mem_cons.mp hleft with hopen | hleft
          · exact Or.inr (hopen ▸ List.mem_cons_self)
          · exact Or.inl hleft
        · exact Or.inr (List.mem_cons_of_mem _ hleft)
      · cases waiting with
        | nil => exact hskip h
        | cons left waiting =>
            rcases List.mem_cons.mp h with rfl | h
            · exact ⟨Or.inl List.mem_cons_self, List.mem_cons_self,
                hstack.waiting_lt left List.mem_cons_self c.position List.mem_cons_self⟩
            · obtain ⟨hleft, hright, hlt⟩ := ih hstack.pop h
              exact ⟨hleft.imp (List.mem_cons_of_mem _) (List.mem_cons_of_mem _),
                List.mem_cons_of_mem _ hright, hlt⟩
      · exact hskip h

/-- A later pair begins behind an earlier one or encloses it. -/
theorem pairwise_pairs (symbols : Symbols) (muted : Bool) (hstack : Stacked waiting cs) :
    (pairs symbols muted waiting cs).Pairwise fun p q => p.2 < q.1 ∨ Encloses q p := by
  induction cs generalizing muted waiting with
  | nil => exact List.Pairwise.nil
  | cons c cs ih =>
      rw [pairs_cons]
      split_ifs
      · exact ih _ hstack.skip
      · exact ih _ hstack.skip
      · exact ih _ hstack.push
      · cases waiting with
        | nil => exact ih _ hstack.skip
        | cons left waiting =>
            refine List.pairwise_cons.mpr ⟨fun q hq => ?_, ih _ hstack.pop⟩
            obtain ⟨hleft, hright, -⟩ := bounds_of_mem_pairs hstack.pop hq
            rcases hleft with hleft | hleft
            · exact Or.inr ⟨(List.pairwise_cons.mp hstack.decreasing).1 q.1 hleft,
                hstack.lt_later q.2 hright⟩
            · exact Or.inl (hstack.lt_later q.1 hleft)
      · exact ih _ hstack.skip

/-- Outermost pairs stand one behind the other. -/
theorem pairwise_outermost (symbols : Symbols)
    (hinc : (cs.map Cell.position).Pairwise (· < ·)) :
    (outermost (pairs symbols false [] cs)).Pairwise fun p q => p.2 < q.1 := by
  have hpairs := pairwise_pairs symbols false (Stacked.of_nil hinc)
  apply (hpairs.filter _).imp_of_mem
  intro p q hp hq hpq
  apply hpq.resolve_right
  intro hencloses
  have hnone := (List.mem_filter.mp hp).2
  rw [Bool.not_eq_true', List.any_eq_false] at hnone
  exact hnone q (List.mem_of_mem_filter hq) (decide_eq_true hencloses)

/-- Which pairs are outermost hangs on the order of the positions alone. -/
theorem outermost_map {place : Nat → Nat} (hplace : StrictMono place) (ps : List (Nat × Nat)) :
    outermost (ps.map (Prod.map place place)) = (outermost ps).map (Prod.map place place) := by
  have hencloses (q p : Nat × Nat) :
      Encloses (Prod.map place place q) (Prod.map place place p) ↔ Encloses q p :=
    and_congr hplace.lt_iff_lt hplace.lt_iff_lt
  simp only [outermost, List.filter_map, List.any_map, Function.comp_def, hencloses]

theorem map_places_keyed (seen : List Text) (ps : List (Nat × Nat × Text)) :
    (keyed seen ps).map (fun r => (r.left, r.right)) = ps.map fun p => (p.1, p.2.1) := by
  induction ps generalizing seen with
  | nil => rfl
  | cons p ps ih =>
      obtain ⟨left, right, content⟩ := p
      rw [keyed, List.map_cons, ih, List.map_cons]

theorem map_places_ofCells (symbols : Symbols) (cs : List (Cell R)) :
    (ofCells symbols cs).map (fun r => (r.left, r.right)) =
      outermost (pairs symbols false [] cs) := by
  rw [ofCells, map_places_keyed, List.map_map]
  exact List.map_id _

/-- The regions of a scan stand one behind the other. -/
theorem pairwise_ofCells (hinc : (cs.map Cell.position).Pairwise (· < ·)) :
    (ofCells symbols cs).Pairwise fun r r' => r.right < r'.left := by
  have houtermost := pairwise_outermost symbols hinc
  rw [← map_places_ofCells, List.pairwise_map] at houtermost
  exact houtermost

theorem left_lt_right (hinc : (cs.map Cell.position).Pairwise (· < ·)) {r : Region}
    (hr : r ∈ ofCells symbols cs) : r.left < r.right := by
  have hplace : (r.left, r.right) ∈ (ofCells symbols cs).map fun r => (r.left, r.right) :=
    List.mem_map_of_mem hr
  rw [map_places_ofCells] at hplace
  exact (bounds_of_mem_pairs (Stacked.of_nil hinc) (List.mem_of_mem_filter hplace)).2.2

end Region

end ProseScore
