import ProseScore.Proofs.Binary64.Sum
import ProseScore.Proofs.Timer.Drain

/-!
# Endless timers

On a clock of binary64 numbers a timer stands still as soon as its period is lost
in its due time, and from then on it is due again and again at the same time.  A
drain comes to its end exactly if this happens to none of the timers before the
horizon.
-/

namespace ProseScore

open Binary64

/-! ## One timer -/

namespace Timer

/-- The period of the timer is lost in its due time. -/
def Stalls (t : Timer Float) : Prop :=
  Binary64.Stalls t.nextDue t.period

/-- The timer stands still, now or after some firings, and is due by the horizon when it
does. -/
def Endless (horizon : Float) (t : Timer Float) : Prop :=
  ∃ k, (again^[k] t).nextDue ≤ horizon ∧ (again^[k] t).Stalls

/-- Due at a time of the clock, and again after a time. -/
structure Rising (t : Timer Float) : Prop where
  nextDue_nonneg : 0 ≤ t.nextDue
  period_pos : 0 < t.period

theorem Rising.again {t : Timer Float} (h : t.Rising) : t.again.Rising :=
  ⟨add_nonneg h.nextDue_nonneg h.period_pos, h.period_pos⟩

theorem Rising.nextDue_le_again {t : Timer Float} (h : t.Rising) : t.nextDue ≤ t.again.nextDue :=
  le_add h.nextDue_nonneg h.period_pos

theorem Rising.nextDue_lt_again_iff {t : Timer Float} (h : t.Rising) :
    t.nextDue < t.again.nextDue ↔ ¬ t.Stalls :=
  lt_add_iff h.nextDue_nonneg h.period_pos

theorem Stalls.again_eq {t : Timer Float} (h : t.Stalls) (ht : t.Rising) : t.again = t := by
  rw [Timer.again, Binary64.Stalls.add_eq h ht.nextDue_nonneg ht.period_pos]

theorem Endless.of_again {horizon : Float} {t : Timer Float} (h : t.again.Endless horizon) :
    t.Endless horizon :=
  h.imp' (· + 1) fun _ hk => hk

theorem Endless.again {horizon : Float} {t : Timer Float} (h : t.Endless horizon)
    (ht : t.Rising) : t.again.Endless horizon := by
  obtain ⟨k, hdue, hstalls⟩ := h
  cases k with
  | zero =>
      have heq : t.again = t := Stalls.again_eq hstalls ht
      rw [heq]
      exact ⟨0, hdue, hstalls⟩
  | succ k => exact ⟨k, hdue, hstalls⟩

/-- Due times do not go back, so a timer that will be due by the horizon is due by the
horizon now. -/
theorem Endless.nextDue_le {horizon : Float} {t : Timer Float} (h : t.Endless horizon)
    (ht : t.Rising) : t.nextDue ≤ horizon := by
  obtain ⟨k, hdue, -⟩ := h
  induction k generalizing t with
  | zero => exact hdue
  | succ k ih =>
      exact le_trans_of_nonneg ht.nextDue_nonneg ht.nextDue_le_again (ih ht.again hdue)

end Timer

/-! ## Timers together -/

namespace Timers

/-- The clock and all timers are on their way up. -/
structure Rising (ts : Timers Float) : Prop where
  nodup : (ts.running.map Timer.handle).Nodup
  now_nonneg : 0 ≤ ts.now
  rising : ∀ t ∈ ts.running, t.Rising

theorem now_nonneg_advanceTo {ts : Timers Float} (h : 0 ≤ ts.now) (time : Float) :
    0 ≤ (ts.advanceTo time).now := by
  rw [advanceTo]
  split
  · exact nonneg_of_lt h ‹_›
  · exact h

theorem Rising.advanceTo {ts : Timers Float} (h : ts.Rising) (time : Float) :
    (ts.advanceTo time).Rising :=
  ⟨h.nodup, now_nonneg_advanceTo h.now_nonneg time, h.rising⟩

theorem Rising.fire {ts : Timers Float} (h : ts.Rising) {t : Timer Float} (ht : t ∈ ts.running) :
    (ts.fire t).Rising where
  nodup := (SameTimers.fire ts t).handles_eq ▸ h.nodup
  now_nonneg := now_nonneg_advanceTo h.now_nonneg t.nextDue
  rising := by
    intro u hu
    rcases (mem_running_fire h.nodup ht).mp hu with rfl | ⟨hu, -⟩
    · exact (h.rising t ht).again
    · exact h.rising u hu

theorem Rising.of_drains {horizon : Float} {ts later : Timers Float}
    {firings : List (Firing Float)} (h : ts.Rising) (hdrains : Drains horizon ts firings later) :
    later.Rising := by
  induction hdrains with
  | done _ => exact h
  | pop hpop _ ih =>
      obtain ⟨t, hdue, -, rfl⟩ := pop?_eq_some_iff.mp hpop
      exact ih (h.fire (mem_running_of_due? hdue).1)

theorem Drains.not_endless {horizon : Float} {ts later : Timers Float}
    {firings : List (Firing Float)} (hdrains : Drains horizon ts firings later) (h : ts.Rising) :
    ∀ t ∈ ts.running, ¬ t.Endless horizon := by
  -- An endless timer stays so whatever fires, and it is due each time.
  induction hdrains with
  | done hnone =>
      intro t ht hendless
      exact due?_eq_none_iff.mp (pop?_eq_none_iff.mp hnone) t ht
        (hendless.nextDue_le (h.rising t ht))
  | @pop ts _ _ _ _ hpop _ ih =>
      obtain ⟨t, hdue, -, rfl⟩ := pop?_eq_some_iff.mp hpop
      have ht := (mem_running_of_due? hdue).1
      intro u hu hendless
      by_cases hhandle : u.handle = t.handle
      · obtain rfl := eq_of_handle_eq h.nodup hu ht hhandle
        exact ih (h.fire ht) _ ((mem_running_fire h.nodup ht).mpr (Or.inl rfl))
          (hendless.again (h.rising _ ht))
      · exact ih (h.fire ht) u ((mem_running_fire h.nodup ht).mpr (Or.inr ⟨hu, hhandle⟩)) hendless

theorem Rising.exists_drain? {horizon : Float} {ts : Timers Float} (h : ts.Rising)
    (hends : ∀ t ∈ ts.running, ¬ t.Endless horizon) :
    ∃ firings later, ts.drain? horizon = some (firings, later) := by
  -- Each firing brings its timer nearer to the greatest number.
  refine Timers.exists_drain? (fun t => t.Rising ∧ ¬ t.Endless horizon)
    (fun t => 2 ^ 64 - rank t.nextDue) ?_ ?_ h.nodup fun t ht => ⟨h.rising t ht, hends t ht⟩
  · rintro t ⟨ht, hends⟩ hdue
    have hstalls : ¬ t.Stalls := fun hstalls => hends ⟨0, hdue, hstalls⟩
    have hlt := ht.nextDue_lt_again_iff.mpr hstalls
    rw [lt_iff_rank ht.nextDue_nonneg ht.again.nextDue_nonneg] at hlt
    have hle := rank_le t.again.nextDue
    refine ⟨⟨ht.again, fun hagain => hends hagain.of_again⟩, ?_, by omega⟩
    rw [le_iff_rank ht.again.nextDue_nonneg ht.nextDue_nonneg]
    exact Nat.not_le.mpr hlt
  · intro t _
    exact Nat.sub_le _ _

theorem Rising.drain?_eq_none_iff {horizon : Float} {ts : Timers Float} (h : ts.Rising) :
    ts.drain? horizon = none ↔ ∃ t ∈ ts.running, t.Endless horizon := by
  constructor
  · intro hnone
    by_contra hends
    push Not at hends
    obtain ⟨firings, later, hdrain⟩ := h.exists_drain? hends
    rw [hnone] at hdrain
    cases hdrain
  · rintro ⟨t, ht, hendless⟩
    by_contra hsome
    obtain ⟨⟨firings, later⟩, hdrain⟩ := Option.ne_none_iff_exists'.mp hsome
    obtain ⟨last, hdrains, -⟩ := drain?_eq_some hdrain
    exact hdrains.not_endless h t ht hendless

theorem Rising.exists_drains_iff {horizon : Float} {ts : Timers Float} (h : ts.Rising) :
    (∃ firings last, Drains horizon ts firings last) ↔
      ∀ t ∈ ts.running, ¬ t.Endless horizon := by
  constructor
  · rintro ⟨firings, last, hdrains⟩
    exact hdrains.not_endless h
  · intro hends
    obtain ⟨firings, later, hdrain⟩ := h.exists_drain? hends
    obtain ⟨last, hdrains, -⟩ := drain?_eq_some hdrain
    exact ⟨firings, last, hdrains⟩

end Timers

end ProseScore
