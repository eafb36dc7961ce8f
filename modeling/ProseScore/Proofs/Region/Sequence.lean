import Mathlib.Algebra.Group.Nat.Even
import Mathlib.Tactic.SplitIfs
import ProseScore.Proofs.Region.Order

/-!
# Sequences of brackets

What the scan for regions makes of a text hangs on nothing but the loop brackets
outside quotes.  They are a sequence, and a stack matches them: a right bracket
takes the latest left one that waits.  It takes the one below `depth` others
exactly if the brackets before it close these, and no more.
-/

namespace ProseScore

/-- Where a position goes when `k` places are made in front of `start`. -/
def makeRoom (start k i : Nat) : Nat :=
  if i < start then i else i + k

theorem makeRoom_of_lt {start k i : Nat} (h : i < start) : makeRoom start k i = i :=
  if_pos h

theorem makeRoom_of_le {start k i : Nat} (h : start ≤ i) : makeRoom start k i = i + k :=
  if_neg (Nat.not_lt.mpr h)

theorem strictMono_makeRoom (start k : Nat) : StrictMono (makeRoom start k) := by
  intro i j hij
  rw [makeRoom, makeRoom]
  split_ifs <;> omega

/-- The positions of one thing in two texts that have stretches of lengths `k` and `k'`
at `start`: the same in front of the stretch, and as far from its end behind it. -/
def Shifts (start k k' i i' : Nat) : Prop :=
  i < start ∧ i' = i ∨ start + k ≤ i ∧ i' + k = i + k'

theorem shifts_makeRoom (start k k' i : Nat) :
    Shifts start k k' (makeRoom start k i) (makeRoom start k' i) := by
  rw [Shifts, makeRoom, makeRoom]
  split_ifs <;> omega

/-- A loop bracket outside quotes and its position. -/
inductive Bracket where
  | left (position : Nat)
  | right (position : Nat)
  deriving DecidableEq, Repr

namespace Bracket

def position : Bracket → Nat
  | left i => i
  | right i => i

def isLeft : Bracket → Bool
  | left _ => true
  | right _ => false

def isRight : Bracket → Bool
  | left _ => false
  | right _ => true

def move (place : Nat → Nat) : Bracket → Bracket
  | left i => left (place i)
  | right i => right (place i)

/-- The brackets of a text whose first character stands at `start`. -/
def ofText (symbols : Symbols) : (muted : Bool) → (start : Nat) → Text → List Bracket
  | _, _, [] => []
  | muted, start, c :: s =>
    if c = symbols .quote then ofText symbols (!muted) (start + 1) s
    else if muted then ofText symbols muted (start + 1) s
    else if c = symbols .loopOpen then .left start :: ofText symbols muted (start + 1) s
    else if c = symbols .loopClose then .right start :: ofText symbols muted (start + 1) s
    else ofText symbols muted (start + 1) s

/-- The pairs of matching brackets.  The left ones that wait for a partner are in
`waiting`, the latest first. -/
def pairs : (waiting : List Nat) → List Bracket → List (Nat × Nat)
  | _, [] => []
  | waiting, .left i :: bs => pairs (i :: waiting) bs
  | [], .right _ :: bs => pairs [] bs
  | i :: waiting, .right j :: bs => (i, j) :: pairs waiting bs

/-! ## Brackets of a text -/

section Text

variable {symbols : Symbols}

/-- What stands behind a text is muted as the text was begun if its quotes are even in
number, and the other way round if they are odd. -/
theorem ofText_append (muted : Bool) (start : Nat) (s t : Text) :
    ofText symbols muted start (s ++ t) = ofText symbols muted start s ++
      ofText symbols (muted ^^ !decide (Even (s.count (symbols .quote)))) (start + s.length) t := by
  induction s generalizing muted start with
  | nil => simp [ofText]
  | cons c s ih =>
      have hlength : start + (c :: s).length = start + 1 + s.length := by
        rw [List.length_cons]
        omega
      rw [List.cons_append, ofText, ofText, ih, ih, hlength, List.count_cons]
      by_cases hq : c = symbols .quote
      · have hflip : (!muted ^^ !decide (Even (s.count (symbols .quote)))) =
            (muted ^^ !decide (Even (s.count (symbols .quote) + 1))) := by
          rw [decide_eq_decide.mpr Nat.even_add_one, decide_not]
          cases muted <;> simp
        simp [hq, hflip]
      · simp only [hq, beq_iff_eq, if_false, Nat.add_zero]
        split_ifs <;> simp

theorem ofText_append_of_even {start : Nat} {s : Text}
    (h : Even (s.count (symbols .quote))) (t : Text) :
    ofText symbols false start (s ++ t) =
      ofText symbols false start s ++ ofText symbols false (start + s.length) t := by
  rw [ofText_append, decide_eq_true h, Bool.not_true, Bool.xor_false]

theorem ofText_muted {start : Nat} {s : Text} (h : symbols .quote ∉ s) :
    ofText symbols true start s = [] := by
  induction s generalizing start with
  | nil => rfl
  | cons c s ih =>
      have hc : c ≠ symbols .quote := fun hc => h (hc ▸ List.mem_cons_self)
      rw [ofText, if_neg hc, if_pos rfl, ih fun hs => h (List.mem_cons_of_mem c hs)]

theorem ofText_add (muted : Bool) (start k : Nat) (s : Text) :
    ofText symbols muted (start + k) s = (ofText symbols muted start s).map (move (· + k)) := by
  induction s generalizing muted start with
  | nil => rfl
  | cons c s ih =>
      have hnext : start + k + 1 = start + 1 + k := by omega
      rw [ofText, ofText, hnext]
      simp only [ih]
      split_ifs <;> rfl

theorem position_of_mem_ofText {muted : Bool} {start : Nat} {s : Text} {b : Bracket}
    (h : b ∈ ofText symbols muted start s) :
    start ≤ b.position ∧ b.position < start + s.length := by
  induction s generalizing muted start with
  | nil => exact absurd h List.not_mem_nil
  | cons c s ih =>
      have hskip {muted : Bool} (h : b ∈ ofText symbols muted (start + 1) s) :
          start ≤ b.position ∧ b.position < start + (c :: s).length := by
        have hbounds := ih h
        rw [List.length_cons]
        omega
      have hhere (hb : b.position = start) :
          start ≤ b.position ∧ b.position < start + (c :: s).length := by
        rw [hb, List.length_cons]
        omega
      rw [ofText] at h
      split_ifs at h
      · exact hskip h
      · exact hskip h
      · rcases List.mem_cons.mp h with rfl | h
        · exact hhere rfl
        · exact hskip h
      · rcases List.mem_cons.mp h with rfl | h
        · exact hhere rfl
        · exact hskip h
      · exact hskip h

theorem move_eq_self {place : Nat → Nat} {b : Bracket} (h : place b.position = b.position) :
    move place b = b := by
  cases b with
  | left i => exact congrArg left h
  | right i => exact congrArg right h

theorem move_congr {place place' : Nat → Nat} {b : Bracket}
    (h : place b.position = place' b.position) : move place b = move place' b := by
  cases b with
  | left i => exact congrArg left h
  | right i => exact congrArg right h

theorem map_makeRoom_ofText_of_le {muted : Bool} {start room k : Nat} {s : Text}
    (h : start + s.length ≤ room) :
    (ofText symbols muted start s).map (move (makeRoom room k)) = ofText symbols muted start s := by
  rw [List.map_congr_left (g := id), List.map_id]
  intro b hb
  have hbounds := position_of_mem_ofText hb
  exact move_eq_self (makeRoom_of_lt (by omega))

theorem map_makeRoom_ofText {muted : Bool} {start room k : Nat} {s : Text} (h : room ≤ start) :
    (ofText symbols muted start s).map (move (makeRoom room k)) =
      ofText symbols muted (start + k) s := by
  rw [ofText_add]
  apply List.map_congr_left
  intro b hb
  have hbounds := position_of_mem_ofText hb
  exact move_congr (makeRoom_of_le (by omega))

end Text

/-! ## Matching -/

section Matching

variable {depth i j : Nat} {waiting : List Nat} {bs : List Bracket} {p : Nat × Nat}

/-- The brackets close `depth` left ones before them and every one of their own, and at
no place more. -/
structure Closes (depth : Nat) (bs : List Bracket) : Prop where
  count_eq : bs.countP isRight = bs.countP isLeft + depth
  count_le : ∀ k, (bs.take k).countP isRight ≤ (bs.take k).countP isLeft + depth

theorem closes_nil_iff : Closes depth [] ↔ depth = 0 := by
  constructor
  · intro h
    simpa using h.count_eq.symm
  · rintro rfl
    exact ⟨rfl, by simp⟩

theorem closes_cons_iff {b : Bracket} {depth' : Nat}
    (h : depth + (if b.isLeft then 1 else 0) = depth' + if b.isRight then 1 else 0) :
    Closes depth (b :: bs) ↔ Closes depth' bs := by
  constructor
  · rintro ⟨hcount, hle⟩
    refine ⟨?_, fun k => ?_⟩
    · rw [List.countP_cons, List.countP_cons] at hcount
      omega
    · have hk := hle (k + 1)
      rw [List.take_succ_cons, List.countP_cons, List.countP_cons] at hk
      omega
  · rintro ⟨hcount, hle⟩
    refine ⟨?_, fun k => ?_⟩
    · rw [List.countP_cons, List.countP_cons]
      omega
    · cases k with
      | zero => exact Nat.zero_le _
      | succ k =>
          have hk := hle k
          rw [List.take_succ_cons, List.countP_cons, List.countP_cons]
          omega

theorem closes_left_iff : Closes depth (left i :: bs) ↔ Closes (depth + 1) bs :=
  closes_cons_iff rfl

theorem closes_right_iff : Closes (depth + 1) (right j :: bs) ↔ Closes depth bs :=
  closes_cons_iff rfl

theorem not_closes_right : ¬ Closes 0 (right j :: bs) := by
  intro h
  have hfirst := h.count_le 1
  simp [isRight, isLeft] at hfirst

/-- The right bracket at `j` is the partner of a left one before the sequence, below
`depth` others that wait. -/
def ClosedAt (depth : Nat) (bs : List Bracket) (j : Nat) : Prop :=
  ∃ inner rest, bs = inner ++ right j :: rest ∧ Closes depth inner

theorem not_closedAt_nil : ¬ ClosedAt depth [] j := by
  rintro ⟨inner, rest, h, -⟩
  exact List.append_ne_nil_of_right_ne_nil inner (List.cons_ne_nil _ _) h.symm

theorem closedAt_left_iff : ClosedAt depth (left i :: bs) j ↔ ClosedAt (depth + 1) bs j := by
  constructor
  · rintro ⟨inner, rest, h, hcloses⟩
    rcases List.cons_eq_append_iff.mp h with ⟨rfl, h⟩ | ⟨inner, rfl, rfl⟩
    · cases h
    · exact ⟨inner, rest, rfl, closes_left_iff.mp hcloses⟩
  · rintro ⟨inner, rest, rfl, hcloses⟩
    exact ⟨left i :: inner, rest, rfl, closes_left_iff.mpr hcloses⟩

theorem closedAt_zero_right_iff : ClosedAt 0 (right i :: bs) j ↔ i = j := by
  constructor
  · rintro ⟨inner, rest, h, hcloses⟩
    rcases List.cons_eq_append_iff.mp h with ⟨rfl, h⟩ | ⟨inner, rfl, rfl⟩
    · cases h
      rfl
    · exact absurd hcloses not_closes_right
  · rintro rfl
    exact ⟨[], bs, rfl, closes_nil_iff.mpr rfl⟩

theorem closedAt_succ_right_iff : ClosedAt (depth + 1) (right i :: bs) j ↔ ClosedAt depth bs j := by
  constructor
  · rintro ⟨inner, rest, h, hcloses⟩
    rcases List.cons_eq_append_iff.mp h with ⟨rfl, -⟩ | ⟨inner, rfl, rfl⟩
    · exact absurd (closes_nil_iff.mp hcloses) (Nat.succ_ne_zero depth)
    · exact ⟨inner, rest, rfl, closes_right_iff.mp hcloses⟩
  · rintro ⟨inner, rest, rfl, hcloses⟩
    exact ⟨right i :: inner, rest, rfl, closes_right_iff.mpr hcloses⟩

/-- The left bracket at `i` is part of the sequence, and so is its partner at `j`. -/
def PairedAt (bs : List Bracket) (i j : Nat) : Prop :=
  ∃ front rest, bs = front ++ left i :: rest ∧ ClosedAt 0 rest j

theorem not_pairedAt_nil : ¬ PairedAt [] i j := by
  rintro ⟨front, rest, h, -⟩
  exact List.append_ne_nil_of_right_ne_nil front (List.cons_ne_nil _ _) h.symm

theorem pairedAt_cons_iff {b : Bracket} :
    PairedAt (b :: bs) i j ↔ b = left i ∧ ClosedAt 0 bs j ∨ PairedAt bs i j := by
  constructor
  · rintro ⟨front, rest, h, hclosed⟩
    rcases List.cons_eq_append_iff.mp h with ⟨rfl, h⟩ | ⟨front, rfl, rfl⟩
    · obtain ⟨rfl, rfl⟩ := List.cons_eq_cons.mp h
      exact Or.inl ⟨rfl, hclosed⟩
    · exact Or.inr ⟨front, rest, rfl, hclosed⟩
  · rintro (⟨rfl, hclosed⟩ | ⟨front, rest, rfl, hclosed⟩)
    · exact ⟨[], bs, rfl, hclosed⟩
    · exact ⟨b :: front, rest, rfl, hclosed⟩

/-- **What the stack matches.** A left bracket that waits below `depth` others is paired
with the right one that closes it, and one of the sequence with the right one from which
a balanced stretch parts it. -/
theorem mem_pairs_iff : p ∈ pairs waiting bs ↔
    (∃ depth, waiting[depth]? = some p.1 ∧ ClosedAt depth bs p.2) ∨ PairedAt bs p.1 p.2 := by
  -- A left bracket is put on the stack, so the depth of those below it is one more.
  induction bs generalizing waiting with
  | nil => simp [pairs, not_closedAt_nil, not_pairedAt_nil]
  | cons b bs ih =>
      rw [pairedAt_cons_iff]
      cases b with
      | left i =>
          simp only [pairs, ih, closedAt_left_iff, left.injEq]
          constructor
          · rintro (⟨depth, hwaits, hclosed⟩ | hpaired)
            · cases depth with
              | zero => exact Or.inr (Or.inl ⟨Option.some_inj.mp hwaits, hclosed⟩)
              | succ depth => exact Or.inl ⟨depth, hwaits, hclosed⟩
            · exact Or.inr (Or.inr hpaired)
          · rintro (⟨depth, hwaits, hclosed⟩ | ⟨rfl, hclosed⟩ | hpaired)
            · exact Or.inl ⟨depth + 1, hwaits, hclosed⟩
            · exact Or.inl ⟨0, rfl, hclosed⟩
            · exact Or.inr hpaired
      | right j =>
          simp only [reduceCtorEq, false_and, false_or]
          cases waiting with
          | nil => simp [pairs, ih]
          | cons i waiting =>
              rw [pairs, List.mem_cons, ih, ← or_assoc]
              apply or_congr_left
              constructor
              · rintro (rfl | ⟨depth, hwaits, hclosed⟩)
                · exact ⟨0, rfl, closedAt_zero_right_iff.mpr rfl⟩
                · exact ⟨depth + 1, hwaits, closedAt_succ_right_iff.mpr hclosed⟩
              · rintro ⟨depth, hwaits, hclosed⟩
                cases depth with
                | zero =>
                    exact Or.inl (Prod.ext (Option.some_inj.mp hwaits).symm
                      (closedAt_zero_right_iff.mp hclosed).symm)
                | succ depth =>
                    exact Or.inr ⟨depth, hwaits, closedAt_succ_right_iff.mp hclosed⟩

theorem mem_of_mem_pairs_nil (h : p ∈ pairs [] bs) : left p.1 ∈ bs ∧ right p.2 ∈ bs := by
  have hpaired := mem_pairs_iff.mp h
  simp only [List.getElem?_nil, reduceCtorEq, false_and, exists_false, false_or] at hpaired
  obtain ⟨front, rest, rfl, inner, behind, rfl, -⟩ := hpaired
  simp

theorem pairs_map_move (place : Nat → Nat) (waiting : List Nat) (bs : List Bracket) :
    pairs (waiting.map place) (bs.map (move place)) =
      (pairs waiting bs).map (Prod.map place place) := by
  induction bs generalizing waiting with
  | nil => rfl
  | cons b bs ih =>
      cases b with
      | left i => exact ih (i :: waiting)
      | right j =>
          cases waiting with
          | nil => exact ih []
          | cons i waiting => exact congrArg ((place i, place j) :: ·) (ih waiting)

/-- What waits behind a sequence hangs on the sequence alone. -/
theorem exists_pairs_append (waiting : List Nat) (front : List Bracket) :
    ∃ waiting', ∀ bs, pairs waiting (front ++ bs) = pairs waiting front ++ pairs waiting' bs := by
  induction front generalizing waiting with
  | nil => exact ⟨waiting, fun _ => rfl⟩
  | cons b front ih =>
      cases b with
      | left i => exact ih (i :: waiting)
      | right j =>
          cases waiting with
          | nil => exact ih []
          | cons i waiting =>
              obtain ⟨waiting', h⟩ := ih waiting
              exact ⟨waiting', fun bs => congrArg ((i, j) :: ·) (h bs)⟩

/-! ### Brackets without a partner -/

/-- Under a left bracket that finds no partner nothing is ever taken from the stack, so
it does not matter what stands there. -/
theorem pairs_append_eq_of_unpaired {above below : List Nat}
    (h : ∀ p ∈ pairs (above ++ i :: below) bs, p.1 ≠ i) (below' : List Nat) :
    pairs (above ++ below') bs = pairs above bs := by
  induction bs generalizing above with
  | nil => rfl
  | cons b bs ih =>
      cases b with
      | left k =>
          have hpushed : ∀ p ∈ pairs (k :: above ++ i :: below) bs, p.1 ≠ i := h
          exact ih hpushed
      | right j =>
          cases above with
          | nil =>
              -- With nothing above it the left bracket itself would be taken.
              exact absurd rfl (h (i, j) List.mem_cons_self)
          | cons k above =>
              have hrest := ih fun p hp => h p (List.mem_cons_of_mem (k, j) hp)
              exact congrArg ((k, j) :: ·) hrest

/-- Behind a bracket that finds no partner the matching begins anew, and so it does
where the bracket is left out. -/
theorem pairs_eq_of_unpaired {b : Bracket}
    (h : ∀ p ∈ pairs waiting (b :: bs), p.1 ≠ b.position ∧ p.2 ≠ b.position) :
    pairs waiting (b :: bs) = pairs [] bs ∧ pairs waiting bs = pairs [] bs := by
  cases b with
  | left i =>
      have halone : ∀ p ∈ pairs ([] ++ i :: waiting) bs, p.1 ≠ i := fun p hp => (h p hp).1
      have hanew := pairs_append_eq_of_unpaired halone
      exact ⟨hanew (i :: waiting), hanew waiting⟩
  | right j =>
      cases waiting with
      | nil => exact ⟨rfl, rfl⟩
      | cons i waiting => exact absurd rfl (h (i, j) List.mem_cons_self).2

/-- With or without a bracket that finds no partner, what stands before it and what
stands behind it are matched apart. -/
theorem pairs_append_cons_of_unpaired {front : List Bracket} {b : Bracket}
    (h : ∀ p ∈ pairs [] (front ++ b :: bs), p.1 ≠ b.position ∧ p.2 ≠ b.position) :
    pairs [] (front ++ b :: bs) = pairs [] front ++ pairs [] bs ∧
      pairs [] (front ++ bs) = pairs [] front ++ pairs [] bs := by
  obtain ⟨waiting, happend⟩ := exists_pairs_append [] front
  rw [happend] at h
  obtain ⟨hwith, hwithout⟩ := pairs_eq_of_unpaired fun p hp => h p (List.mem_append_right _ hp)
  rw [happend, happend, hwith, hwithout]
  exact ⟨rfl, rfl⟩

end Matching
end Bracket

/-- The scan matches the brackets of its text. -/
theorem Region.pairs_numberFrom {R : Type} (symbols : Symbols) (muted : Bool)
    (waiting : List Nat) (start letters : Nat) (gs : List (Glyph R)) :
    pairs symbols muted waiting (Cell.numberFrom start letters gs) =
      Bracket.pairs waiting (Bracket.ofText symbols muted start (gs.map Glyph.char)) := by
  induction gs generalizing muted waiting start letters with
  | nil => rfl
  | cons g gs ih =>
      rw [Cell.numberFrom, pairs_cons, List.map_cons, Bracket.ofText]
      simp only [ih]
      split_ifs
      · rfl
      · rfl
      · rfl
      · cases waiting <;> rfl
      · rfl

theorem Region.pairs_number {R : Type} (symbols : Symbols) (gs : List (Glyph R)) :
    pairs symbols false [] (Cell.number gs) =
      Bracket.pairs [] (Bracket.ofText symbols false 0 (gs.map Glyph.char)) :=
  pairs_numberFrom symbols false [] 0 0 gs

end ProseScore
