import ProseScore.Proofs.Timer.Schedule

/-!
# Time in slices

A drain up to a late horizon passes by every earlier one.  Where it is broken off
at an earlier horizon, the clock is set to that horizon and the drain is taken up
again, the firings and the timers come out the same, since everything that is left
is due later than the clock has been set.
-/

namespace ProseScore.Timers

variable {τ : Type} [LinearOrder τ]

theorem advanceTo_advanceTo (ts : Timers τ) {time later : τ} (h : time ≤ later) :
    (ts.advanceTo time).advanceTo later = ts.advanceTo later := by
  have hnow : ((ts.advanceTo time).advanceTo later).now = (ts.advanceTo later).now := by
    rw [now_advanceTo, now_advanceTo, now_advanceTo, max_assoc, max_eq_right h]
  exact congrArg (fun now => { ts with now }) hnow

/-- What fires next up to a horizon fires next up to any later one. -/
theorem due?_of_le {ts : Timers τ} (hts : (ts.running.map Timer.handle).Pairwise (· < ·))
    {horizon later : τ} (hle : horizon ≤ later) {t : Timer τ} (hdue : ts.due? horizon = some t) :
    ts.due? later = some t := by
  obtain ⟨ht, htime⟩ := mem_running_of_due? hdue
  cases hlater : ts.due? later with
  | none => exact absurd (htime.trans hle) (due?_eq_none_iff.mp hlater t ht)
  | some u =>
      obtain ⟨hu, -⟩ := mem_running_of_due? hlater
      have hkey : u.next.key = t.next.key :=
        le_antisymm (key_le_of_due? hts hlater ht) (key_le_of_due? hts hdue hu)
      have hhandle : u.handle = t.handle := (Prod.mk.inj hkey).2
      rw [eq_of_handle_eq (hts.imp Nat.ne_of_lt) hu ht hhandle]

variable [Add τ]

/-- A firing sets the clock, so it does not matter where the clock has been
before. -/
theorem fire_advanceTo (ts : Timers τ) {t : Timer τ} {time : τ} (h : time ≤ t.nextDue) :
    (ts.advanceTo time).fire t = ts.fire t := by
  let again (u : Timer τ) := if u.handle = t.handle then u.again else u
  exact advanceTo_advanceTo { ts with running := ts.running.map again } h

namespace Drains

variable {horizon later : τ} {ts mid last : Timers τ} {firings rest : List (Firing τ)}

theorem unique (h : Drains horizon ts firings last) {firings' : List (Firing τ)}
    {last' : Timers τ} (h' : Drains horizon ts firings' last') :
    firings = firings' ∧ last = last' := by
  induction h generalizing firings' with
  | done hpop =>
      cases h' with
      | done _ => exact ⟨rfl, rfl⟩
      | pop hpop' _ => simp [hpop] at hpop'
  | pop hpop _ ih =>
      cases h' with
      | done hpop' => simp [hpop] at hpop'
      | pop hpop' hrest =>
          obtain ⟨rfl, rfl⟩ := Prod.mk.inj (Option.some_inj.mp (hpop.symm.trans hpop'))
          obtain ⟨rfl, rfl⟩ := ih hrest
          exact ⟨rfl, rfl⟩

theorem lt_nextDue (h : Drains horizon ts firings last) {t : Timer τ} (ht : t ∈ last.running) :
    horizon < t.nextDue := by
  induction h with
  | done hpop => exact not_le.mp (due?_eq_none_iff.mp (pop?_eq_none_iff.mp hpop) t ht)
  | pop _ _ ih => exact ih ht

/-- A drain that is taken up again behind an earlier horizon. -/
theorem append (h : Drains horizon ts firings mid)
    (hts : (ts.running.map Timer.handle).Pairwise (· < ·)) (hle : horizon ≤ later)
    (hrest : Drains later mid rest last) : Drains later ts (firings ++ rest) last := by
  induction h with
  | done _ => exact hrest
  | pop hpop _ ih =>
      obtain ⟨t, hdue, rfl, rfl⟩ := pop?_eq_some_iff.mp hpop
      have hnext := hts
      rw [← (SameTimers.fire _ t).handles_eq] at hnext
      exact .pop (pop?_eq_some_iff.mpr ⟨t, due?_of_le hts hle hdue, rfl, rfl⟩) (ih hnext hrest)

/-- The clock may be set to any time at which no timer is due yet. -/
theorem of_advanceTo (h : Drains later (ts.advanceTo horizon) firings last)
    (hle : horizon ≤ later) (hdue : ∀ t ∈ ts.running, horizon ≤ t.nextDue) :
    ∃ last', Drains later ts firings last' ∧ last'.advanceTo later = last.advanceTo later := by
  cases h with
  | done hpop =>
      have hnone : (ts.advanceTo horizon).due? later = none := pop?_eq_none_iff.mp hpop
      exact ⟨ts, .done (pop?_eq_none_iff.mpr hnone), (advanceTo_advanceTo ts hle).symm⟩
  | pop hpop hrest =>
      obtain ⟨t, hfirst, rfl, rfl⟩ := pop?_eq_some_iff.mp hpop
      have hfirst' : ts.due? later = some t := hfirst
      have ht := (mem_running_of_due? hfirst').1
      rw [fire_advanceTo ts (hdue t ht)] at hrest
      exact ⟨last, .pop (pop?_eq_some_iff.mpr ⟨t, hfirst', rfl, rfl⟩) hrest, rfl⟩

end Drains

/-- In exact time, draining up to a horizon and from there up to a later one brings
what one drain brings. -/
theorem Advancing.drain?_append {ts mid last : Timers Rat} (hts : ts.Advancing)
    {horizon later : Rat} (hle : horizon ≤ later) {firings rest : List (Firing Rat)}
    (h : ts.drain? horizon = some (firings, mid)) (hrest : mid.drain? later = some (rest, last)) :
    ts.drain? later = some (firings ++ rest, last) := by
  obtain ⟨halt, hfirst, rfl⟩ := drain?_eq_some h
  obtain ⟨stop, hsecond, rfl⟩ := drain?_eq_some hrest
  obtain ⟨stop', hresumed, hstop⟩ :=
    hsecond.of_advanceTo hle fun t ht => (hfirst.lt_nextDue ht).le
  obtain ⟨all, timers, hdrain⟩ := hts.exists_drain? later
  obtain ⟨end', hall, rfl⟩ := drain?_eq_some hdrain
  obtain ⟨rfl, rfl⟩ := hall.unique (hfirst.append hts.increasing hle hresumed)
  rw [hdrain, hstop]

end ProseScore.Timers
