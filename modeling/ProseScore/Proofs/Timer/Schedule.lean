import Mathlib.Data.Rat.Floor
import ProseScore.Proofs.Timer.Drain
import ProseScore.Proofs.Timer.Order
import ProseScore.Scalar.Exact

/-!
# Schedules

In exact time a timer stands for the progression of its due times.  A drain merges
the progressions of all timers up to the horizon: it comes to an end, it brings
every term once and in order, and it leaves each timer at its first term beyond.
-/

namespace ProseScore

/-! ## One timer -/

namespace Timer

/-- The firing of a timer that comes after `k` others. -/
def term (t : Timer Rat) (k : Nat) : Firing Rat :=
  ⟨t.handle, t.nextDue + k * t.period⟩

theorem term_zero (t : Timer Rat) : t.term 0 = t.next := by
  rw [term, next, Nat.cast_zero, zero_mul, add_zero]

theorem term_again (t : Timer Rat) (k : Nat) : t.again.term k = t.term (k + 1) := by
  rw [term, term, again, Nat.cast_succ]
  congr 1
  ring

theorem nextDue_le_term {t : Timer Rat} (h : 0 < t.period) (k : Nat) :
    t.nextDue ≤ (t.term k).due :=
  le_add_of_nonneg_right (mul_nonneg k.cast_nonneg h.le)

theorem next_key_le_term {t : Timer Rat} (h : 0 < t.period) (k : Nat) :
    t.next.key ≤ (t.term k).key :=
  Firing.key_le_key_iff.mpr
    ((lt_or_eq_of_le (nextDue_le_term h k)).imp_right fun heq => ⟨heq, le_refl _⟩)

/-- How many terms of a timer lie at or before a horizon. -/
def remaining (horizon : Rat) (t : Timer Rat) : Nat :=
  (⌊(horizon - t.nextDue) / t.period⌋ + 1).toNat

theorem remaining_le_termBound (horizon : Rat) (t : Timer Rat) :
    t.remaining horizon ≤ Scalar.termBound t.nextDue t.period horizon := by
  have hbound : Scalar.termBound t.nextDue t.period horizon =
      ⌊(horizon - t.nextDue) / t.period⌋.toNat + 1 := rfl
  rw [hbound, remaining]
  omega

theorem remaining_again {horizon : Rat} {t : Timer Rat} (h : 0 < t.period)
    (hdue : t.nextDue ≤ horizon) : t.again.remaining horizon + 1 = t.remaining horizon := by
  have hquotient : (horizon - t.again.nextDue) / t.again.period =
      (horizon - t.nextDue) / t.period - 1 := by
    rw [again, ← sub_sub, sub_div, div_self h.ne']
  have hfloor : 0 ≤ ⌊(horizon - t.nextDue) / t.period⌋ :=
    Int.floor_nonneg.mpr (div_nonneg (sub_nonneg.mpr hdue) h.le)
  rw [remaining, remaining, hquotient, Int.floor_sub_one]
  omega

end Timer

/-! ## Timers together -/

namespace Timers

/-- Every timer gets on, and the handles grow from timer to timer. -/
structure Advancing (ts : Timers Rat) : Prop where
  increasing : (ts.running.map Timer.handle).Pairwise (· < ·)
  period_pos : ∀ t ∈ ts.running, 0 < t.period

theorem Advancing.of_sameTimers {ts later : Timers Rat} (h : ts.Advancing)
    (hsame : ts.SameTimers later) : later.Advancing where
  increasing := by
    rw [hsame.handles_eq]
    exact h.increasing
  period_pos := by
    intro t ht
    obtain ⟨u, hu, -, hperiod⟩ := hsame.exists_timer ht
    exact hperiod ▸ h.period_pos u hu

theorem Advancing.nodup {ts : Timers Rat} (h : ts.Advancing) :
    (ts.running.map Timer.handle).Nodup :=
  h.increasing.imp Nat.ne_of_lt

/-- Up to the horizon a timer has this firing ahead. -/
def Scheduled (horizon : Rat) (ts : Timers Rat) (f : Firing Rat) : Prop :=
  (∃ t ∈ ts.running, ∃ k, f = t.term k) ∧ f.due ≤ horizon

section Firing

variable {horizon : Rat} {ts : Timers Rat} {t : Timer Rat}

/-- A firing takes itself from the schedule and nothing else. -/
theorem Advancing.scheduled_iff (h : ts.Advancing) (hdue : ts.due? horizon = some t)
    {f : Firing Rat} : Scheduled horizon ts f ↔ f = t.next ∨ Scheduled horizon (ts.fire t) f := by
  obtain ⟨ht, hle⟩ := mem_running_of_due? hdue
  simp only [Scheduled, mem_running_fire h.nodup ht]
  constructor
  · rintro ⟨⟨u, hu, k, rfl⟩, hhorizon⟩
    by_cases hhandle : u.handle = t.handle
    · obtain rfl := eq_of_handle_eq h.nodup hu ht hhandle
      cases k with
      | zero => exact Or.inl u.term_zero
      | succ k => exact Or.inr ⟨⟨u.again, Or.inl rfl, k, (u.term_again k).symm⟩, hhorizon⟩
    · exact Or.inr ⟨⟨u, Or.inr ⟨hu, hhandle⟩, k, rfl⟩, hhorizon⟩
  · rintro (rfl | ⟨⟨u, rfl | ⟨hu, -⟩, k, rfl⟩, hhorizon⟩)
    · exact ⟨⟨t, ht, 0, t.term_zero.symm⟩, hle⟩
    · exact ⟨⟨t, ht, k + 1, t.term_again k⟩, hhorizon⟩
    · exact ⟨⟨u, hu, k, rfl⟩, hhorizon⟩

/-- What is ahead after a firing comes after it. -/
theorem Advancing.next_key_lt (h : ts.Advancing) (hdue : ts.due? horizon = some t)
    {f : Firing Rat} (hf : Scheduled horizon (ts.fire t) f) : t.next.key < f.key := by
  obtain ⟨⟨u, hu, k, rfl⟩, -⟩ := hf
  obtain ⟨ht, -⟩ := mem_running_of_due? hdue
  have hpos : 0 < u.period :=
    (h.of_sameTimers (SameTimers.fire ts t)).period_pos u hu
  have hterm : u.next.key ≤ (u.term k).key := Timer.next_key_le_term hpos k
  rcases (mem_running_fire h.nodup ht).mp hu with rfl | ⟨hu, hhandle⟩
  · have hagain : t.next.key < t.again.next.key :=
      Firing.key_lt_key_iff.mpr (Or.inl (lt_add_of_pos_right _ hpos))
    exact hagain.trans_le hterm
  · have hne : t.next.key ≠ u.next.key := fun heq => hhandle (Prod.mk.inj heq).2.symm
    exact ((key_le_of_due? h.increasing hdue hu).lt_of_ne hne).trans_le hterm

theorem not_scheduled_of_due?_eq_none (h : ts.Advancing) (hdue : ts.due? horizon = none)
    (f : Firing Rat) : ¬ Scheduled horizon ts f := by
  rintro ⟨⟨u, hu, k, rfl⟩, hhorizon⟩
  exact due?_eq_none_iff.mp hdue u hu ((Timer.nextDue_le_term (h.period_pos u hu) k).trans hhorizon)

end Firing

/-! ## Drains -/

namespace Drains

variable {horizon : Rat} {ts later : Timers Rat} {firings : List (Firing Rat)}

theorem mem_iff (h : Drains horizon ts firings later) (hts : ts.Advancing) {f : Firing Rat} :
    f ∈ firings ↔ Scheduled horizon ts f := by
  induction h with
  | done hpop =>
      have hnone := not_scheduled_of_due?_eq_none hts (pop?_eq_none_iff.mp hpop) f
      exact iff_of_false List.not_mem_nil hnone
  | @pop ts next later g firings hpop _ ih =>
      obtain ⟨t, hdue, rfl, rfl⟩ := pop?_eq_some_iff.mp hpop
      rw [List.mem_cons, ih (hts.of_sameTimers (SameTimers.fire ts t))]
      exact (hts.scheduled_iff hdue).symm

theorem pairwise (h : Drains horizon ts firings later) (hts : ts.Advancing) :
    firings.Pairwise fun f g => f.key < g.key := by
  induction h with
  | done _ => exact List.Pairwise.nil
  | @pop ts next later g firings hpop hrest ih =>
      obtain ⟨t, hdue, rfl, rfl⟩ := pop?_eq_some_iff.mp hpop
      have hnext := hts.of_sameTimers (SameTimers.fire ts t)
      refine List.pairwise_cons.mpr ⟨fun f hf => ?_, ih hnext⟩
      exact hts.next_key_lt hdue ((hrest.mem_iff hnext).mp hf)

/-- Each timer comes to its first term beyond the horizon. -/
theorem exists_term_gt (h : Drains horizon ts firings later) (hts : ts.Advancing) {t : Timer Rat}
    (ht : t ∈ ts.running) : ∃ n : Nat, { t with nextDue := (t.term n).due } ∈ later.running ∧
      horizon < (t.term n).due ∧ ∀ k < n, (t.term k).due ≤ horizon := by
  induction h generalizing t with
  | done hpop =>
      have hlt := not_le.mp (due?_eq_none_iff.mp (pop?_eq_none_iff.mp hpop) t ht)
      refine ⟨0, ?_, ?_, fun k hk => absurd hk k.not_lt_zero⟩
      · rw [t.term_zero]
        exact ht
      · rw [t.term_zero]
        exact hlt
  | @pop ts next later g firings hpop _ ih =>
      obtain ⟨u, hdue, -, rfl⟩ := pop?_eq_some_iff.mp hpop
      obtain ⟨hu, hle⟩ := mem_running_of_due? hdue
      have hnext := hts.of_sameTimers (SameTimers.fire ts u)
      by_cases hhandle : t.handle = u.handle
      · obtain rfl := eq_of_handle_eq hts.nodup ht hu hhandle
        obtain ⟨n, hmem, hgt, hbefore⟩ :=
          ih hnext ((mem_running_fire hts.nodup hu).mpr (Or.inl rfl))
        simp only [t.term_again] at hmem hgt hbefore
        refine ⟨n + 1, hmem, hgt, fun k hk => ?_⟩
        cases k with
        | zero =>
            rw [t.term_zero]
            exact hle
        | succ k => exact hbefore k (Nat.lt_of_succ_lt_succ hk)
      · exact ih hnext ((mem_running_fire hts.nodup hu).mpr (Or.inr ⟨ht, hhandle⟩))

theorem now_advanceTo (h : Drains horizon ts firings later) :
    (later.advanceTo horizon).now = max ts.now horizon := by
  induction h with
  | done _ => exact Timers.now_advanceTo _ horizon
  | @pop ts next later g firings hpop _ ih =>
      obtain ⟨t, hdue, -, rfl⟩ := pop?_eq_some_iff.mp hpop
      have hle := (mem_running_of_due? hdue).2
      have hnow : (ts.fire t).now = max ts.now t.nextDue := Timers.now_advanceTo _ t.nextDue
      rw [ih, hnow, max_assoc, max_eq_right hle]

end Drains

theorem Advancing.exists_drain? {ts : Timers Rat} (h : ts.Advancing) (horizon : Rat) :
    ∃ firings later, ts.drain? horizon = some (firings, later) := by
  refine Timers.exists_drain? (fun t => 0 < t.period) (Timer.remaining horizon) ?_ ?_ h.nodup
    h.period_pos
  · intro t hpos hdue
    have hlater : t.nextDue < t.again.nextDue := lt_add_of_pos_right _ hpos
    have hless := Timer.remaining_again hpos hdue
    exact ⟨hpos, not_le.mpr hlater, by omega⟩
  · exact fun t _ => Timer.remaining_le_termBound horizon t

end Timers

end ProseScore
