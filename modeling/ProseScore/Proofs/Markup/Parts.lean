import Mathlib.Data.Nat.Init
import Mathlib.Order.Basic
import Mathlib.Tactic.ByContra
import ProseScore.Markup.Tag
import ProseScore.Token.Cell

/-!
# The parts of a tag

What stands in a tag is read once, with the open quote and an open part.  Here its
parts are told by positions alone: each position is in a quoted stretch or not, a blank
outside of them parts, and a part is a longest run of positions none of which does.
-/

namespace ProseScore.Tag

/-- The quote that is open behind a character. -/
def quoteBehind : Option Char → Char → Option Char
  | some q, c => if c = q then none else some q
  | none, c => if isQuote c then some c else none

/-- The quote that is open at a position, where all characters before it are read. -/
def quoteAt (body : Text) (i : Nat) : Option Char :=
  (body.take i).foldl quoteBehind none

/-- The quote that is open at `i` was opened at `j`, outside quotes, and its character does
not stand between. -/
structure Opened (body : Text) (q : Char) (i j : Nat) : Prop where
  lt : j < i
  opens : body[j]? = some q
  quote : isQuote q = true
  outside : quoteAt body j = none
  unclosed : ∀ k, j < k → k < i → body[k]? ≠ some q

/-- A blank outside quotes. -/
def Breaks (body : Text) (i : Nat) : Prop :=
  body[i]?.any isBlank = true ∧ quoteAt body i = none

instance (body : Text) : DecidablePred (Breaks body) :=
  fun _ => inferInstanceAs (Decidable (_ ∧ _))

structure IsRun (body : Text) (e : Extent) : Prop where
  start_lt_stop : e.start < e.stop
  stop_le : e.stop ≤ body.length
  unbroken : ∀ i, e.start ≤ i → i < e.stop → ¬ Breaks body i

/-- A run that is part of no longer run. -/
structure IsPart (body : Text) (e : Extent) : Prop extends IsRun body e where
  maximal : ∀ f, IsRun body f → f.start ≤ e.start → e.stop ≤ f.stop → f = e

def slice (body : Text) (e : Extent) : Text :=
  (body.take e.stop).drop e.start

/-- The characters from a position on that do not break, in order. -/
def keptFrom (body : Text) (k : Nat) : Text :=
  ((body.zipIdx.drop k).filter fun p => ¬ Breaks body p.2).map Prod.fst

/-! ## One character -/

variable {body : Text}

theorem isBlank_of_isQuote {c : Char} (h : isQuote c = true) : isBlank c = false := by
  simp only [isQuote, Bool.or_eq_true, decide_eq_true_eq] at h
  rcases h with rfl | rfl <;> decide

theorem quoteAt_succ {i : Nat} {c : Char} (h : body[i]? = some c) :
    quoteAt body (i + 1) = quoteBehind (quoteAt body i) c := by
  rw [quoteAt, quoteAt, List.take_add_one, h, List.foldl_append]
  rfl

theorem quoteAt_succ_of_none {i : Nat} (h : body[i]? = none) :
    quoteAt body (i + 1) = quoteAt body i := by
  rw [quoteAt, quoteAt, List.take_add_one, h, Option.toList_none, List.append_nil]

theorem Opened.succ {q : Char} {i j : Nat} (h : Opened body q i j) (hne : body[i]? ≠ some q) :
    Opened body q (i + 1) j where
  lt := Nat.lt_succ_of_lt h.lt
  opens := h.opens
  quote := h.quote
  outside := h.outside
  unclosed := by
    intro k hk hk'
    rcases Nat.lt_succ_iff_lt_or_eq.mp hk' with hlt | rfl
    · exact h.unclosed k hk hlt
    · exact hne

theorem Opened.quoteAt_eq {q : Char} {i j : Nat} (h : Opened body q i j) :
    quoteAt body i = some q := by
  obtain ⟨hlt, hopens, hquote, houtside, hunclosed⟩ := h
  induction i, hlt using Nat.le_induction with
  | base => rw [quoteAt_succ hopens, houtside, quoteBehind, if_pos hquote]
  | succ i hlt ih =>
      have hopen := ih fun k hk hk' => hunclosed k hk (Nat.lt_succ_of_lt hk')
      cases hc : body[i]? with
      | none => rw [quoteAt_succ_of_none hc, hopen]
      | some c =>
          have hne : c ≠ q := fun heq =>
            hunclosed i hlt (Nat.lt_succ_self i) (hc.trans (congrArg some heq))
          rw [quoteAt_succ hc, hopen, quoteBehind, if_neg hne]

theorem exists_opened {q : Char} {i : Nat} (h : quoteAt body i = some q) :
    ∃ j, Opened body q i j := by
  induction i with
  | zero => exact absurd h.symm (Option.some_ne_none q)
  | succ i ih =>
      have hstays (hopen : quoteAt body i = some q) (hne : body[i]? ≠ some q) :
          ∃ j, Opened body q (i + 1) j :=
        (ih hopen).imp fun j hj => hj.succ hne
      cases hc : body[i]? with
      | none =>
          rw [quoteAt_succ_of_none hc] at h
          apply hstays h
          simp [hc]
      | some c =>
          rw [quoteAt_succ hc] at h
          cases hopen : quoteAt body i with
          | some q' =>
              rw [hopen, quoteBehind] at h
              obtain ⟨hne, hq⟩ := Option.ite_none_left_eq_some.mp h
              apply hstays (hopen.trans hq)
              rintro heq
              exact hne (Option.some_inj.mp (hc.symm.trans (heq.trans hq.symm)))
          | none =>
              rw [hopen, quoteBehind] at h
              obtain ⟨hquote, hq⟩ := Option.ite_none_right_eq_some.mp h
              obtain rfl := Option.some_inj.mp hq
              refine ⟨i, Nat.lt_succ_self i, hc, hquote, hopen, fun k hk hk' => ?_⟩
              exact absurd hk' (Nat.not_lt.mpr hk)

theorem breaks_iff {i : Nat} {c : Char} (h : body[i]? = some c) :
    Breaks body i ↔ isBlank c = true ∧ quoteAt body i = none := by
  rw [Breaks, h, Option.any_some]

theorem Breaks.lt {i : Nat} (h : Breaks body i) : i < body.length := by
  obtain ⟨c, hc, -⟩ := (Option.any_eq_true _ _).mp h.1
  exact (List.getElem?_eq_some_iff.mp hc).1

/-- A break neither opens nor closes a quote. -/
theorem Breaks.quoteAt_succ {i : Nat} (h : Breaks body i) : quoteAt body (i + 1) = none := by
  obtain ⟨c, hc, hblank⟩ := (Option.any_eq_true _ _).mp h.1
  have hplain : isQuote c ≠ true := fun hquote =>
    Bool.false_ne_true ((isBlank_of_isQuote hquote).symm.trans hblank)
  rw [Tag.quoteAt_succ hc, h.2, quoteBehind, if_neg hplain]

theorem slice_succ {k stop : Nat} {c : Char} (h : body[k]? = some c) (hlt : k < stop) :
    slice body ⟨k, stop⟩ = c :: slice body ⟨k + 1, stop⟩ := by
  have hget : (body.take stop)[k]? = some c := by rw [List.getElem?_take_of_lt hlt, h]
  obtain ⟨hk, hat⟩ := List.getElem?_eq_some_iff.mp hget
  rw [slice, slice, List.drop_eq_getElem_cons hk, hat]

theorem length_slice {e : Extent} (h : e.stop ≤ body.length) :
    (slice body e).length = e.stop - e.start := by
  rw [slice, List.length_drop, List.length_take, Nat.min_eq_left h]

theorem keptFrom_succ {k : Nat} {c : Char} (h : body[k]? = some c) :
    keptFrom body k =
      if Breaks body k then keptFrom body (k + 1) else c :: keptFrom body (k + 1) := by
  have hget : body.zipIdx[k]? = some (c, k) := by simp [h]
  obtain ⟨hk, hat⟩ := List.getElem?_eq_some_iff.mp hget
  rw [keptFrom, keptFrom, List.drop_eq_getElem_cons hk, hat, List.filter_cons]
  by_cases hbreaks : Breaks body k <;> simp [hbreaks]

/-! ## Parts -/

/-- A run that begins before a break ends before it, and one that ends behind a break begins
behind it. -/
theorem IsRun.stop_le_of_ends {e : Extent} (h : IsRun body e) {stop : Nat}
    (hends : stop = body.length ∨ Breaks body stop) (hstart : e.start ≤ stop) : e.stop ≤ stop := by
  by_contra hlt
  rcases hends with rfl | hbreaks
  · exact hlt h.stop_le
  · exact h.unbroken stop hstart (Nat.lt_of_not_le hlt) hbreaks

theorem IsRun.le_start_of_begins {e : Extent} (h : IsRun body e) {start : Nat}
    (hbegins : start = 0 ∨ Breaks body (start - 1)) (hstop : start ≤ e.stop) :
    start ≤ e.start := by
  by_contra hlt
  rcases hbegins with rfl | hbreaks
  · exact hlt (Nat.zero_le _)
  · exact h.unbroken (start - 1) (by omega) (by omega) hbreaks

theorem IsRun.extend_left {start stop : Nat} (h : IsRun body ⟨start + 1, stop⟩)
    (hbefore : ¬ Breaks body start) : IsRun body ⟨start, stop⟩ where
  start_lt_stop := Nat.lt_of_succ_lt h.start_lt_stop
  stop_le := h.stop_le
  unbroken := by
    intro i hi hi'
    rcases Nat.eq_or_lt_of_le hi with rfl | hi
    · exact hbefore
    · exact h.unbroken i hi hi'

theorem IsRun.extend_right {start stop : Nat} (h : IsRun body ⟨start, stop⟩)
    (hlt : stop < body.length) (hbehind : ¬ Breaks body stop) : IsRun body ⟨start, stop + 1⟩ where
  start_lt_stop := Nat.lt_succ_of_lt h.start_lt_stop
  stop_le := hlt
  unbroken := by
    intro i hi hi'
    rcases Nat.lt_succ_iff_lt_or_eq.mp hi' with hi' | rfl
    · exact h.unbroken i hi hi'
    · exact hbehind

/-- A run is a part if it begins and ends where the text does, or at breaks. -/
theorem isPart_iff {start stop : Nat} : IsPart body ⟨start, stop⟩ ↔
    IsRun body ⟨start, stop⟩ ∧ (start = 0 ∨ Breaks body (start - 1)) ∧
      (stop = body.length ∨ Breaks body stop) := by
  constructor
  · intro h
    refine ⟨h.toIsRun, ?_, ?_⟩
    · rw [or_iff_not_imp_left]
      intro hpos
      obtain ⟨start, rfl⟩ := Nat.exists_eq_succ_of_ne_zero hpos
      by_contra hbefore
      have heq := h.maximal _ (h.toIsRun.extend_left hbefore) (Nat.le_succ start) (Nat.le_refl stop)
      exact absurd (congrArg Extent.start heq) (Nat.succ_ne_self start).symm
    · rw [or_iff_not_imp_left]
      intro hne
      by_contra hbehind
      have hlt : stop < body.length := Nat.lt_of_le_of_ne h.stop_le hne
      have heq := h.maximal _ (h.toIsRun.extend_right hlt hbehind) (Nat.le_refl start)
        (Nat.le_succ stop)
      exact absurd (congrArg Extent.stop heq) (Nat.succ_ne_self stop)
  · rintro ⟨hrun, hbegins, hends⟩
    refine ⟨hrun, ?_⟩
    rintro ⟨start', stop'⟩ hlonger hstart hstop
    have hstart' : start ≤ start' := hlonger.le_start_of_begins hbegins
      (Nat.le_trans (Nat.le_of_lt hrun.start_lt_stop) hstop)
    have hstop' : stop' ≤ stop := hlonger.stop_le_of_ends hends
      (Nat.le_trans hstart (Nat.le_of_lt hrun.start_lt_stop))
    obtain rfl : start' = start := Nat.le_antisymm hstart hstart'
    obtain rfl : stop' = stop := Nat.le_antisymm hstop' hstop
    rfl

theorem IsPart.quoteAt_start {e : Extent} (h : IsPart body e) : quoteAt body e.start = none := by
  obtain ⟨start, stop⟩ := e
  cases start with
  | zero => rfl
  | succ start =>
      have hbegins := (isPart_iff.mp h).2.1.resolve_left (Nat.succ_ne_zero start)
      exact hbegins.quoteAt_succ

theorem quoteAt_slice {e : Extent} (h : quoteAt body e.start = none) {i : Nat}
    (hi : e.start + i ≤ e.stop) : quoteAt (slice body e) i = quoteAt body (e.start + i) := by
  have htake : (slice body e).take i = (body.drop e.start).take i := by
    rw [slice, List.drop_take, List.take_take, Nat.min_eq_left (by omega)]
  rw [quoteAt, htake, quoteAt, List.take_add, List.foldl_append]
  exact congrArg (List.foldl quoteBehind · _) h.symm

theorem breaks_slice_iff {e : Extent} (h : quoteAt body e.start = none) {i : Nat}
    (hi : e.start + i < e.stop) : Breaks (slice body e) i ↔ Breaks body (e.start + i) := by
  have hget : (slice body e)[i]? = body[e.start + i]? := by
    rw [slice, List.getElem?_drop, List.getElem?_take_of_lt hi]
  rw [Breaks, Breaks, hget, quoteAt_slice h (Nat.le_of_lt hi)]

/-- Read on its own a part is one part. -/
theorem IsPart.slice_whole {e : Extent} (h : IsPart body e)
    (hclosed : quoteAt body body.length = none) :
    slice body e ≠ [] ∧ (∀ i, ¬ Breaks (slice body e) i) ∧
      quoteAt (slice body e) (slice body e).length = none := by
  have hlength := length_slice h.stop_le
  have hlt := h.start_lt_stop
  refine ⟨fun hnil => ?_, fun i hi => ?_, ?_⟩
  · rw [hnil, List.length_nil] at hlength
    omega
  · have hin := hlength ▸ hi.lt
    refine h.unbroken (e.start + i) (Nat.le_add_right _ _) (by omega) ?_
    exact (breaks_slice_iff h.quoteAt_start (by omega)).mp hi
  · rw [hlength, quoteAt_slice h.quoteAt_start (by omega), Nat.add_sub_of_le (Nat.le_of_lt hlt)]
    rcases (isPart_iff.mp h).2.2 with hend | hbehind
    · exact hend ▸ hclosed
    · exact hbehind.2

/-! ## Reading from a position on -/

/-- The parts behind an open one, together with it unless it is empty. -/
def closed (r : Text × List Text) : List Text :=
  if r.1 = [] then r.2 else r.1 :: r.2

theorem parts?_eq_map (body : Text) : parts? body = (partsFrom none body).map closed :=
  rfl

theorem partsFrom_cons (quote : Option Char) (c : Char) (r : Text) :
    partsFrom quote (c :: r) = (partsFrom (quoteBehind quote c) r).map fun found =>
      if isBlank c = true ∧ quote = none then ([], closed found) else (c :: found.1, found.2) := by
  cases quote with
  | some q => simp [partsFrom, quoteBehind]
  | none =>
      by_cases hquote : isQuote c = true
      · simp [partsFrom, quoteBehind, hquote, isBlank_of_isQuote hquote]
      · by_cases hblank : isBlank c = true
        · simp [partsFrom, quoteBehind, hquote, hblank, closed]
        · simp [partsFrom, quoteBehind, hquote, hblank]

theorem partsFrom_eq_none_iff {quote : Option Char} {s : Text} :
    partsFrom quote s = none ↔ ∃ q, s.foldl quoteBehind quote = some q := by
  induction s generalizing quote with
  | nil => cases quote <;> simp [partsFrom]
  | cons c r ih => rw [partsFrom_cons, Option.map_eq_none_iff, ih, List.foldl_cons]

/-- What is read from position `k` on: the part that is open there, up to `stop`, and the
parts behind it. -/
structure ReadsFrom (body : Text) (k : Nat) (r : Text × List Text) (stop : Nat)
    (extents : List Extent) : Prop where
  le_stop : k ≤ stop
  stop_le : stop ≤ body.length
  unbroken : ∀ i, k ≤ i → i < stop → ¬ Breaks body i
  ends : stop = body.length ∨ Breaks body stop
  open_eq : r.1 = slice body ⟨k, stop⟩
  ordered : extents.Pairwise fun e f => e.stop < f.start
  mem_iff : ∀ e, e ∈ extents ↔ stop < e.start ∧ IsPart body e
  parts_eq : r.2 = extents.map (slice body)
  kept_eq : r.1 ++ r.2.flatten = keptFrom body k

/-- The parts from a position on when none is open there. -/
structure ClosedFrom (body : Text) (k : Nat) (parts : List Text) (extents : List Extent) :
    Prop where
  ordered : extents.Pairwise fun e f => e.stop < f.start
  mem_iff : ∀ e, e ∈ extents ↔ k ≤ e.start ∧ IsPart body e
  parts_eq : parts = extents.map (slice body)
  kept_eq : parts.flatten = keptFrom body k

namespace ReadsFrom

variable {k stop : Nat} {r : Text × List Text} {extents : List Extent}

theorem start_ne (h : ReadsFrom body k r stop extents) {e : Extent} (he : IsPart body e) :
    e.start ≠ stop := by
  intro heq
  have hle := he.stop_le_of_ends h.ends (Nat.le_of_eq heq)
  exact absurd (heq ▸ he.start_lt_stop) (Nat.not_lt.mpr hle)

/-- A part that begins in the open one is all of it. -/
theorem eq_of_start_lt (h : ReadsFrom body k r stop extents) {e : Extent} (he : IsPart body e)
    (hstart : k ≤ e.start) (hlt : e.start < stop) : e = ⟨k, stop⟩ := by
  have hrun : IsRun body ⟨k, stop⟩ := ⟨Nat.lt_of_le_of_lt hstart hlt, h.stop_le, h.unbroken⟩
  exact (he.maximal _ hrun hstart (he.stop_le_of_ends h.ends (Nat.le_of_lt hlt))).symm

theorem close (h : ReadsFrom body k r stop extents) (hleft : k = 0 ∨ Breaks body (k - 1)) :
    ∃ extents, ClosedFrom body k (closed r) extents := by
  have hlength : r.1.length = stop - k := by
    rw [h.open_eq]
    exact length_slice h.stop_le
  have hle := h.le_stop
  by_cases hnil : r.1 = []
  · have hempty : k = stop := by
      rw [hnil] at hlength
      change 0 = stop - k at hlength
      omega
    have hclosed : closed r = r.2 := if_pos hnil
    refine ⟨extents, h.ordered, fun e => ?_, hclosed.trans h.parts_eq, ?_⟩
    · rw [h.mem_iff, hempty]
      refine and_congr_left fun he => ⟨Nat.le_of_lt, fun hstart => ?_⟩
      exact Nat.lt_of_le_of_ne hstart (h.start_ne he).symm
    · rw [hclosed, ← h.kept_eq, hnil, List.nil_append]
  · have hlt : k < stop := by
      have := List.length_pos_iff.mpr hnil
      omega
    have hclosed : closed r = r.1 :: r.2 := if_neg hnil
    have hpart : IsPart body ⟨k, stop⟩ :=
      isPart_iff.mpr ⟨⟨hlt, h.stop_le, h.unbroken⟩, hleft, h.ends⟩
    refine ⟨⟨k, stop⟩ :: extents, ?_, fun e => ?_, ?_, ?_⟩
    · exact List.Pairwise.cons (fun e he => ((h.mem_iff e).mp he).1) h.ordered
    · rw [List.mem_cons, h.mem_iff]
      constructor
      · rintro (rfl | ⟨hstart, he⟩)
        · exact ⟨Nat.le_refl k, hpart⟩
        · exact ⟨Nat.le_trans hle (Nat.le_of_lt hstart), he⟩
      · rintro ⟨hstart, he⟩
        rcases Nat.lt_trichotomy e.start stop with hless | heq | hmore
        · exact Or.inl (h.eq_of_start_lt he hstart hless)
        · exact absurd heq (h.start_ne he)
        · exact Or.inr ⟨hmore, he⟩
    · rw [hclosed, List.map_cons, ← h.open_eq, h.parts_eq]
    · rw [hclosed, List.flatten_cons, h.kept_eq]

theorem extend (h : ReadsFrom body (k + 1) r stop extents) {c : Char} (hc : body[k]? = some c)
    (hbreaks : ¬ Breaks body k) : ReadsFrom body k (c :: r.1, r.2) stop extents where
  le_stop := Nat.le_of_succ_le h.le_stop
  stop_le := h.stop_le
  unbroken := by
    intro i hi hi'
    rcases Nat.eq_or_lt_of_le hi with rfl | hi
    · exact hbreaks
    · exact h.unbroken i hi hi'
  ends := h.ends
  open_eq := by
    rw [slice_succ hc h.le_stop, ← h.open_eq]
  ordered := h.ordered
  mem_iff := h.mem_iff
  parts_eq := h.parts_eq
  kept_eq := by
    rw [keptFrom_succ hc, if_neg hbreaks, ← h.kept_eq]
    rfl

theorem gap (h : ReadsFrom body (k + 1) r stop extents) (hbreaks : Breaks body k) :
    ∃ extents, ReadsFrom body k ([], closed r) k extents := by
  obtain ⟨extents, hclosed⟩ := h.close (Or.inr hbreaks)
  obtain ⟨c, hc, -⟩ := (Option.any_eq_true _ _).mp hbreaks.1
  exact ⟨extents, {
    le_stop := Nat.le_refl k
    stop_le := Nat.le_of_lt hbreaks.lt
    unbroken := fun i hi hi' => absurd hi' (Nat.not_lt.mpr hi)
    ends := Or.inr hbreaks
    open_eq := by simp [slice]
    ordered := hclosed.ordered
    mem_iff := hclosed.mem_iff
    parts_eq := hclosed.parts_eq
    kept_eq := by
      rw [List.nil_append, hclosed.kept_eq, keptFrom_succ hc, if_pos hbreaks] }⟩

end ReadsFrom

theorem readsFrom_length : ReadsFrom body body.length ([], []) body.length [] where
  le_stop := Nat.le_refl _
  stop_le := Nat.le_refl _
  unbroken := fun i hi hi' => absurd hi' (Nat.not_lt.mpr hi)
  ends := Or.inl rfl
  open_eq := by simp [slice]
  ordered := List.Pairwise.nil
  mem_iff := by
    refine fun e => iff_of_false List.not_mem_nil fun ⟨hstart, he⟩ => ?_
    have hlt := he.start_lt_stop
    have hle := he.stop_le
    omega
  parts_eq := rfl
  kept_eq := by
    rw [keptFrom, List.drop_eq_nil_of_le (Nat.le_of_eq List.length_zipIdx)]
    rfl

/-- The reader, from the last position back to the first. -/
theorem exists_readsFrom {k : Nat} (hk : k ≤ body.length) {r : Text × List Text}
    (hr : partsFrom (quoteAt body k) (body.drop k) = some r) :
    ∃ stop extents, ReadsFrom body k r stop extents := by
  induction hk using Nat.decreasingInduction generalizing r with
  | self =>
      rw [List.drop_length] at hr
      cases hquote : quoteAt body body.length with
      | some q =>
          rw [hquote, partsFrom] at hr
          exact absurd hr (Option.some_ne_none r).symm
      | none =>
          rw [hquote, partsFrom, Option.some_inj] at hr
          exact ⟨body.length, [], hr ▸ readsFrom_length⟩
  | of_succ k hlt ih =>
      have hc : body[k]? = some body[k] := List.getElem?_eq_getElem hlt
      rw [List.drop_eq_getElem_cons hlt, partsFrom_cons, ← quoteAt_succ hc] at hr
      obtain ⟨found, hfound, rfl⟩ := Option.map_eq_some_iff.mp hr
      obtain ⟨stop, extents, h⟩ := ih hfound
      by_cases hbreaks : Breaks body k
      · rw [if_pos ((breaks_iff hc).mp hbreaks)]
        exact ⟨k, h.gap hbreaks⟩
      · rw [if_neg (mt (breaks_iff hc).mpr hbreaks)]
        exact ⟨stop, extents, h.extend hc hbreaks⟩

/-- **A tag is divided at the blanks outside quotes.**  A quote that is opened outside quotes
is open up to the next one of its kind.  If one is open at the end, there are no parts.
Otherwise the parts are the longest runs of characters other than blanks outside quotes, in
order; none is empty or has such a blank or an open quote of its own, and together they hold
all characters but these blanks. -/
theorem parts_between_breaks (body : Text) :
    (∀ i q, quoteAt body i = some q ↔ ∃ j, Opened body q i j) ∧
    (parts? body = none ↔ ∃ q, quoteAt body body.length = some q) ∧
    ∀ parts, parts? body = some parts →
      (∃ extents : List Extent, extents.Pairwise (fun e f => e.stop < f.start) ∧
        (∀ e, e ∈ extents ↔ IsPart body e) ∧ parts = extents.map (slice body)) ∧
      (∀ part ∈ parts, part ≠ [] ∧ (∀ i, ¬ Breaks part i) ∧
        quoteAt part part.length = none) ∧
      parts.flatten = keptFrom body 0 := by
  have hnone : parts? body = none ↔ ∃ q, quoteAt body body.length = some q := by
    rw [parts?_eq_map, Option.map_eq_none_iff, partsFrom_eq_none_iff, quoteAt, List.take_length]
  refine ⟨fun i q => ⟨exists_opened, fun ⟨j, hj⟩ => hj.quoteAt_eq⟩, hnone, fun parts hparts => ?_⟩
  have hclosed : quoteAt body body.length = none := by
    by_contra hne
    obtain ⟨q, hq⟩ := Option.ne_none_iff_exists'.mp hne
    exact absurd (hparts.symm.trans (hnone.mpr ⟨q, hq⟩)) (Option.some_ne_none parts)
  rw [parts?_eq_map] at hparts
  obtain ⟨r, hr, rfl⟩ := Option.map_eq_some_iff.mp hparts
  obtain ⟨stop, extents, hreads⟩ := exists_readsFrom (Nat.zero_le body.length) hr
  obtain ⟨extents, h⟩ := hreads.close (Or.inl rfl)
  have hmem (e : Extent) : e ∈ extents ↔ IsPart body e := by
    rw [h.mem_iff, and_iff_right (Nat.zero_le _)]
  refine ⟨⟨extents, h.ordered, hmem, h.parts_eq⟩, fun part hpart => ?_, h.kept_eq⟩
  rw [h.parts_eq] at hpart
  obtain ⟨e, he, rfl⟩ := List.mem_map.mp hpart
  exact ((hmem e).mp he).slice_whole hclosed

/-- Two quoted stretches side by side are in one part, and each keeps the other quote. -/
theorem parts_between_breaks_beside_quotes :
    let body := " b  k=\"a 'c d\"'e f\"' ".toList
    let parts := ["b".toList, "k=\"a 'c d\"'e f\"'".toList]
    parts? body = some parts ∧
      (∀ part ∈ parts, part ≠ [] ∧ (∀ i, ¬ Breaks part i) ∧ quoteAt part part.length = none) ∧
      parts.flatten = keptFrom body 0 ∧ parts? ('\'' :: body) = none := by
  intro body parts
  have hparts : parts? body = some parts := by decide +kernel
  obtain ⟨-, hwhole, hkept⟩ := (parts_between_breaks body).2.2 parts hparts
  refine ⟨hparts, hwhole, hkept, ?_⟩
  exact (parts_between_breaks ('\'' :: body)).2.1.mpr ⟨'\'', by decide +kernel⟩

end ProseScore.Tag
