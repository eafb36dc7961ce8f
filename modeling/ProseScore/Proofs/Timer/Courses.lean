import Mathlib.Data.List.Sort
import ProseScore.Proofs.Timer.Schedule
import ProseScore.Proofs.Unique

/-!
# The courses of timers

In a drain each timer keeps to its own course, whatever the other timers do: it
fires at its terms, one after the other, and goes on with the first term beyond the
horizon.  So some timers, taken by themselves, fire as their courses tell, even where
other timers fire in between and the handles are other ones.
-/

namespace ProseScore

/-- What a timer does, but for its handle. -/
def Timer.course {τ : Type} (t : Timer τ) : τ × τ :=
  (t.period, t.nextDue)

namespace Timers

variable {horizon : Rat} {ts later : Timers Rat} {firings : List (Firing Rat)}

/-- The firings of one timer are its terms up to the horizon. -/
theorem Drains.exists_terms (h : Drains horizon ts firings later) (hts : ts.Advancing)
    {t : Timer Rat} (ht : t ∈ ts.running) :
    ∃ n : Nat, firings.filter (·.handle = t.handle) = (List.range n).map t.term ∧
      { t with nextDue := (t.term n).due } ∈ later.running := by
  induction h generalizing t with
  | done _ =>
      refine ⟨0, rfl, ?_⟩
      rw [t.term_zero]
      exact ht
  | @pop ts next later f firings hpop _ ih =>
      obtain ⟨u, hdue, rfl, rfl⟩ := pop?_eq_some_iff.mp hpop
      have hu := (mem_running_of_due? hdue).1
      have hnext := hts.of_sameTimers (SameTimers.fire ts u)
      by_cases hhandle : t.handle = u.handle
      · obtain rfl := eq_of_handle_eq hts.nodup ht hu hhandle
        obtain ⟨n, hterms, hmem⟩ := ih hnext ((mem_running_fire hts.nodup hu).mpr (Or.inl rfl))
        refine ⟨n + 1, ?_, ?_⟩
        · have hfirst : (⟨t.handle, t.nextDue⟩ : Firing Rat) = t.term 0 := t.term_zero.symm
          have hrest : t.again.term = t.term ∘ Nat.succ := funext t.term_again
          rw [List.filter_cons_of_pos (by simp), List.range_succ_eq_map, List.map_cons,
            List.map_map, ← hfirst, ← hrest]
          exact congrArg (_ :: ·) hterms
        · rw [t.term_again] at hmem
          exact hmem
      · have hother := (mem_running_fire hts.nodup hu).mpr (Or.inr ⟨ht, hhandle⟩)
        obtain ⟨n, hterms, hmem⟩ := ih hnext hother
        refine ⟨n, ?_, hmem⟩
        rw [List.filter_cons_of_neg (by simpa using Ne.symm hhandle)]
        exact hterms

/-! ## Some of the timers -/

/-- The firings of the timers with some handles, by their due times and by the places
of their handles. -/
def beats {τ : Type} (handles : List Nat) (firings : List (Firing τ)) : List (τ ×ₗ Nat) :=
  (firings.filter (·.handle ∈ handles)).map fun f => toLex (f.due, handles.idxOf f.handle)

theorem idxOf_lt_idxOf {handles : List Nat} (h : handles.Pairwise (· < ·)) {a b : Nat}
    (ha : a ∈ handles) (hb : b ∈ handles) (hlt : a < b) : handles.idxOf a < handles.idxOf b := by
  by_contra hle
  rcases lt_or_eq_of_le (not_lt.mp hle) with hidx | hidx
  · have hba := List.pairwise_iff_getElem.mp h _ _ (List.idxOf_lt_length_iff.mpr hb)
      (List.idxOf_lt_length_iff.mpr ha) hidx
    rw [List.getElem_idxOf, List.getElem_idxOf] at hba
    exact lt_asymm hlt hba
  · exact hlt.ne' ((List.idxOf_inj hb).mp hidx)

theorem pairwise_beats {handles : List Nat} (hhandles : handles.Pairwise (· < ·))
    (hfirings : firings.Pairwise fun f g => f.key < g.key) :
    (beats handles firings).Pairwise (· < ·) := by
  apply List.pairwise_map.mpr
  apply (hfirings.filter _).imp_of_mem
  intro f g hf hg hlt
  have hf' := of_decide_eq_true (List.mem_filter.mp hf).2
  have hg' := of_decide_eq_true (List.mem_filter.mp hg).2
  apply Prod.Lex.toLex_lt_toLex.mpr
  exact (Firing.key_lt_key_iff.mp hlt).imp_right fun heq =>
    ⟨heq.1, idxOf_lt_idxOf hhandles hf' hg' heq.2⟩

theorem Advancing.find?_eq_some_iff (hts : ts.Advancing) {handle : Nat} {t : Timer Rat} :
    ts.find? handle = some t ↔ t ∈ ts.running ∧ t.handle = handle :=
  find?_key_eq_some_iff hts.nodup

def course? {τ : Type} (ts : Timers τ) (handle : Nat) : Option (τ × τ) :=
  (ts.find? handle).map Timer.course

/-- Which beats there are, the courses tell. -/
theorem Drains.mem_beats_iff (h : Drains horizon ts firings later) (hts : ts.Advancing)
    {handles : List Nat} (hhandles : handles.Nodup) (due : Rat) (k : Nat) :
    toLex (due, k) ∈ beats handles firings ↔ ∃ c : Rat × Rat,
      (handles.map ts.course?)[k]? = some (some c) ∧ (∃ m : Nat, due = c.2 + m * c.1) ∧
        due ≤ horizon := by
  rw [beats, List.mem_map]
  constructor
  · rintro ⟨f, hf, heq⟩
    obtain ⟨rfl, rfl⟩ := Prod.mk.inj (toLex.injective heq)
    obtain ⟨hmem, hhandle⟩ := List.mem_filter.mp hf
    obtain ⟨⟨t, ht, m, rfl⟩, hle⟩ := (h.mem_iff hts).mp hmem
    refine ⟨t.course, ?_, ⟨m, rfl⟩, hle⟩
    have hfind : ts.find? t.handle = some t := hts.find?_eq_some_iff.mpr ⟨ht, rfl⟩
    rw [List.getElem?_map, List.getElem?_idxOf (of_decide_eq_true hhandle), Option.map_some,
      course?]
    exact congrArg (some ∘ Option.map Timer.course) hfind
  · rintro ⟨c, hc, ⟨m, rfl⟩, hle⟩
    rw [List.getElem?_map, Option.map_eq_some_iff] at hc
    obtain ⟨handle, hhandle, hcourse⟩ := hc
    obtain ⟨t, hfind, rfl⟩ := Option.map_eq_some_iff.mp hcourse
    obtain ⟨ht, rfl⟩ := hts.find?_eq_some_iff.mp hfind
    have hmem := List.mem_of_getElem? hhandle
    refine ⟨t.term m, List.mem_filter.mpr ⟨?_, decide_eq_true hmem⟩, ?_⟩
    · exact (h.mem_iff hts).mpr ⟨⟨t, ht, m, rfl⟩, hle⟩
    · have hidx : handles.idxOf t.handle = k := by
        apply (List.getElem?_inj (List.idxOf_lt_length_iff.mpr hmem) hhandles).mp
        rw [List.getElem?_idxOf hmem, hhandle]
      exact congrArg (fun k => toLex ((t.term m).due, k)) hidx

theorem course?_eq_none_iff {handle : Nat} :
    ts.course? handle = none ↔ handle ∉ ts.running.map Timer.handle := by
  rw [course?, Option.map_eq_none_iff, find?, List.find?_eq_none, List.mem_map, not_exists]
  simp only [decide_eq_true_eq, not_and]

/-- The course of a timer goes on with the first term beyond the horizon. -/
theorem Drains.exists_course (h : Drains horizon ts firings later) (hts : ts.Advancing)
    {handle : Nat} {c : Rat × Rat} (hcourse : ts.course? handle = some c) : ∃ n : Nat,
      later.course? handle = some (c.1, c.2 + n * c.1) ∧ horizon < c.2 + n * c.1 ∧
        ∀ k < n, c.2 + (k : Nat) * c.1 ≤ horizon := by
  obtain ⟨t, hfind, rfl⟩ := Option.map_eq_some_iff.mp hcourse
  obtain ⟨ht, rfl⟩ := hts.find?_eq_some_iff.mp hfind
  obtain ⟨n, hmem, hgt, hle⟩ := h.exists_term_gt hts ht
  have hlater := (hts.of_sameTimers h.sameTimers).find?_eq_some_iff.mpr ⟨hmem, rfl⟩
  exact ⟨n, congrArg (Option.map Timer.course) hlater, hgt, hle⟩

section

variable {ts' later' : Timers Rat} {firings' : List (Firing Rat)}
  (h : Drains horizon ts firings later) (hts : ts.Advancing)
  (h' : Drains horizon ts' firings' later') (hts' : ts'.Advancing)

include h hts h' hts'

theorem Drains.beats_eq {handles handles' : List Nat} (hhandles : handles.Pairwise (· < ·))
    (hhandles' : handles'.Pairwise (· < ·))
    (hcourses : handles.map ts.course? = handles'.map ts'.course?) :
    beats handles firings = beats handles' firings' := by
  apply List.Pairwise.eq_of_mem_iff (pairwise_beats hhandles (h.pairwise hts))
    (pairwise_beats hhandles' (h'.pairwise hts'))
  intro beat
  have hmem := h.mem_beats_iff hts (hhandles.imp Nat.ne_of_lt) beat.1 beat.2
  have hmem' := h'.mem_beats_iff hts' (hhandles'.imp Nat.ne_of_lt) beat.1 beat.2
  rw [← hcourses] at hmem'
  exact hmem.trans hmem'.symm

theorem Drains.course?_eq {handle handle' : Nat}
    (hcourse : ts.course? handle = ts'.course? handle') :
    later.course? handle = later'.course? handle' := by
  cases hc : ts.course? handle with
  | none =>
      have hnone := course?_eq_none_iff.mp hc
      have hnone' := course?_eq_none_iff.mp (hcourse ▸ hc)
      rw [← h.sameTimers.handles_eq] at hnone
      rw [← h'.sameTimers.handles_eq] at hnone'
      rw [course?_eq_none_iff.mpr hnone, course?_eq_none_iff.mpr hnone']
  | some c =>
      obtain ⟨n, hn, hgt, hle⟩ := h.exists_course hts hc
      obtain ⟨n', hn', hgt', hle'⟩ := h'.exists_course hts' (hcourse ▸ hc)
      -- Both are the number of the first term beyond the horizon.
      obtain rfl : n = n' := by
        rcases lt_trichotomy n n' with hlt | heq | hlt
        · exact absurd (hle' n hlt) (not_le.mpr hgt)
        · exact heq
        · exact absurd (hle n' hlt) (not_le.mpr hgt')
      rw [hn, hn']

end

end Timers
end ProseScore
