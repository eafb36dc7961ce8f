import Mathlib.Algebra.GroupWithZero.Nat
import Mathlib.Algebra.Order.BigOperators.Group.List
import Mathlib.Algebra.Order.Group.Nat
import Mathlib.Data.List.Nodup
import ProseScore.Timer.Drain

/-!
# Drains

Firings move the clock and the due times.  They neither start nor stop a timer,
and no timer changes its period.  A drain comes to its end if each firing uses up
something of what its timer has ahead.
-/

namespace ProseScore.Timers

variable {τ : Type}

/-- The handles of the running timers with their periods. -/
def periods (ts : Timers τ) : List (Nat × τ) :=
  ts.running.map fun t => (t.handle, t.period)

/-- The second state of the timers knows the same timers as the first one. -/
structure SameTimers (ts later : Timers τ) : Prop where
  nextHandle_eq : later.nextHandle = ts.nextHandle
  periods_eq : later.periods = ts.periods

namespace SameTimers

theorem refl (ts : Timers τ) : ts.SameTimers ts :=
  ⟨rfl, rfl⟩

theorem trans {ts₁ ts₂ ts₃ : Timers τ} (h₁ : ts₁.SameTimers ts₂) (h₂ : ts₂.SameTimers ts₃) :
    ts₁.SameTimers ts₃ :=
  ⟨h₂.nextHandle_eq.trans h₁.nextHandle_eq, h₂.periods_eq.trans h₁.periods_eq⟩

theorem handles_eq {ts later : Timers τ} (h : ts.SameTimers later) :
    later.running.map Timer.handle = ts.running.map Timer.handle := by
  have hfst := congrArg (List.map Prod.fst) h.periods_eq
  simpa only [Timers.periods, List.map_map, Function.comp_def] using hfst

theorem exists_timer {ts later : Timers τ} (h : ts.SameTimers later) {t : Timer τ}
    (ht : t ∈ later.running) : ∃ u ∈ ts.running, u.handle = t.handle ∧ u.period = t.period := by
  have hmem : (t.handle, t.period) ∈ later.periods :=
    List.mem_map_of_mem (f := fun t : Timer τ => (t.handle, t.period)) ht
  rw [h.periods_eq] at hmem
  obtain ⟨u, hu, heq⟩ := List.mem_map.mp hmem
  exact ⟨u, hu, Prod.mk.inj heq⟩

theorem advanceTo [LT τ] [DecidableLT τ] (ts : Timers τ) (time : τ) :
    ts.SameTimers (ts.advanceTo time) :=
  ⟨rfl, rfl⟩

theorem fire [Add τ] [LT τ] [DecidableLT τ] (ts : Timers τ) (t : Timer τ) :
    ts.SameTimers (ts.fire t) := by
  refine ⟨rfl, ?_⟩
  rw [periods, periods, Timers.fire, Timers.advanceTo, List.map_map]
  apply List.map_congr_left
  intro u _
  by_cases hu : u.handle = t.handle <;> simp [hu, Timer.again]

end SameTimers

theorem eq_of_handle_eq {ts : Timers τ} (hts : (ts.running.map Timer.handle).Nodup)
    {t u : Timer τ} (ht : t ∈ ts.running) (hu : u ∈ ts.running) (hhandle : t.handle = u.handle) :
    t = u :=
  List.inj_on_of_nodup_map hts ht hu hhandle

theorem mem_running_fire [Add τ] [LT τ] [DecidableLT τ] {ts : Timers τ}
    (hts : (ts.running.map Timer.handle).Nodup) {t u : Timer τ} (ht : t ∈ ts.running) :
    u ∈ (ts.fire t).running ↔ u = t.again ∨ u ∈ ts.running ∧ u.handle ≠ t.handle := by
  rw [fire, advanceTo, List.mem_map]
  constructor
  · rintro ⟨v, hv, rfl⟩
    by_cases hhandle : v.handle = t.handle
    · rw [if_pos hhandle, eq_of_handle_eq hts hv ht hhandle]
      exact Or.inl rfl
    · rw [if_neg hhandle]
      exact Or.inr ⟨hv, hhandle⟩
  · rintro (rfl | ⟨hu, hhandle⟩)
    · exact ⟨t, ht, if_pos rfl⟩
    · exact ⟨u, hu, if_neg hhandle⟩

/-! ## Drains, firing by firing -/

section Drains

variable [Add τ] [LE τ] [DecidableLE τ] [LT τ] [DecidableLT τ]

/-- One firing after the other, until no timer is due by the horizon. -/
inductive Drains (horizon : τ) : Timers τ → List (Firing τ) → Timers τ → Prop
  | done {ts : Timers τ} : ts.pop? horizon = none → Drains horizon ts [] ts
  | pop {ts next later : Timers τ} {f : Firing τ} {firings : List (Firing τ)} :
      ts.pop? horizon = some (f, next) → Drains horizon next firings later →
      Drains horizon ts (f :: firings) later

theorem pop?_eq_none_iff {ts : Timers τ} {horizon : τ} :
    ts.pop? horizon = none ↔ ts.due? horizon = none :=
  Option.map_eq_none_iff

theorem pop?_eq_some_iff {ts next : Timers τ} {horizon : τ} {f : Firing τ} :
    ts.pop? horizon = some (f, next) ↔
      ∃ t, ts.due? horizon = some t ∧ f = ⟨t.handle, t.nextDue⟩ ∧ next = ts.fire t := by
  rw [pop?, Option.map_eq_some_iff]
  refine exists_congr fun t => and_congr_right fun _ => ?_
  rw [Prod.mk.injEq, eq_comm, @eq_comm _ (ts.fire t)]

theorem Drains.sameTimers {horizon : τ} {ts later : Timers τ} {firings : List (Firing τ)}
    (h : Drains horizon ts firings later) : ts.SameTimers later := by
  induction h with
  | done _ => exact SameTimers.refl _
  | pop hpop _ ih =>
      obtain ⟨t, -, -, rfl⟩ := pop?_eq_some_iff.mp hpop
      exact (SameTimers.fire _ t).trans ih

end Drains

variable {R : Type} [Scalar R]

theorem drainWith_of_none {horizon : R} {ts : Timers R} (h : ts.due? horizon = none)
    (fuel : Nat) : ts.drainWith horizon fuel = some ([], ts) := by
  rw [drainWith.eq_def]
  simp only [h]

theorem drainWith_succ_of_some {horizon : R} {ts : Timers R} {t : Timer R}
    (h : ts.due? horizon = some t) (fuel : Nat) :
    ts.drainWith horizon (fuel + 1) =
      if t.again.nextDue ≤ t.nextDue then none
      else ((ts.fire t).drainWith horizon fuel).map fun (firings, ts) =>
        (⟨t.handle, t.nextDue⟩ :: firings, ts) := by
  rw [drainWith]
  simp only [h]

/-- What a drain with fuel brings comes firing by firing. -/
theorem drains_of_drainWith {horizon : R} {fuel : Nat} {ts later : Timers R}
    {firings : List (Firing R)} (h : ts.drainWith horizon fuel = some (firings, later)) :
    Drains horizon ts firings later := by
  induction fuel generalizing ts firings with
  | zero =>
      cases hdue : ts.due? horizon with
      | none =>
          rw [drainWith_of_none hdue] at h
          obtain ⟨rfl, rfl⟩ := Prod.mk.inj (Option.some_inj.mp h)
          exact .done (pop?_eq_none_iff.mpr hdue)
      | some t =>
          rw [drainWith] at h
          simp [hdue] at h
  | succ fuel ih =>
      cases hdue : ts.due? horizon with
      | none =>
          rw [drainWith_of_none hdue] at h
          obtain ⟨rfl, rfl⟩ := Prod.mk.inj (Option.some_inj.mp h)
          exact .done (pop?_eq_none_iff.mpr hdue)
      | some t =>
          rw [drainWith_succ_of_some hdue] at h
          split at h
          · exact absurd h (Option.some_ne_none _).symm
          · obtain ⟨⟨rest, later'⟩, hrest, heq⟩ := Option.map_eq_some_iff.mp h
            obtain ⟨rfl, rfl⟩ := Prod.mk.inj heq
            exact .pop (pop?_eq_some_iff.mpr ⟨t, hdue, rfl, rfl⟩) (ih hrest)

theorem drain?_eq_some {horizon : R} {ts later : Timers R} {firings : List (Firing R)}
    (h : ts.drain? horizon = some (firings, later)) :
    ∃ last, Drains horizon ts firings last ∧ later = last.advanceTo horizon := by
  obtain ⟨⟨firings', last⟩, hdrain, heq⟩ := Option.map_eq_some_iff.mp h
  obtain ⟨rfl, rfl⟩ := Prod.mk.inj heq
  exact ⟨last, drains_of_drainWith hdrain, rfl⟩

theorem SameTimers.drain? {horizon : R} {ts later : Timers R} {firings : List (Firing R)}
    (h : ts.drain? horizon = some (firings, later)) : ts.SameTimers later := by
  obtain ⟨last, hdrains, rfl⟩ := drain?_eq_some h
  exact hdrains.sameTimers.trans (advanceTo last horizon)

/-! ## The end of a drain -/

/-- What a timer has ahead becomes less with each firing, and the others keep
theirs. -/
theorem sum_fire_lt {ahead : Timer R → Nat} {ts : Timers R}
    (hts : (ts.running.map Timer.handle).Nodup) {t : Timer R} (ht : t ∈ ts.running)
    (hless : ahead t.again < ahead t) :
    ((ts.fire t).running.map ahead).sum < (ts.running.map ahead).sum := by
  rw [fire, advanceTo, List.map_map]
  apply List.sum_lt_sum
  · intro u hu
    rw [Function.comp_apply]
    split
    · rw [eq_of_handle_eq hts hu ht ‹_›]
      exact hless.le
    · exact le_refl _
  · refine ⟨t, ht, ?_⟩
    rw [Function.comp_apply, if_pos rfl]
    exact hless

/-- A drain with fuel for all that its timers have ahead comes to its end, if none
of them comes to a halt. -/
theorem exists_drainWith {horizon : R} {P : Timer R → Prop} {ahead : Timer R → Nat}
    (hagain : ∀ t, P t → t.nextDue ≤ horizon →
      P t.again ∧ ¬ t.again.nextDue ≤ t.nextDue ∧ ahead t.again < ahead t)
    {fuel : Nat} {ts : Timers R} (hts : (ts.running.map Timer.handle).Nodup)
    (hP : ∀ t ∈ ts.running, P t) (hfuel : (ts.running.map ahead).sum ≤ fuel) :
    ∃ firings later, ts.drainWith horizon fuel = some (firings, later) := by
  induction fuel generalizing ts with
  | zero =>
      cases hdue : ts.due? horizon with
      | none => exact ⟨[], ts, drainWith_of_none hdue 0⟩
      | some t =>
          -- A firing would leave less than nothing ahead.
          obtain ⟨ht, hle⟩ := mem_running_of_due? hdue
          have hlt := sum_fire_lt hts ht (hagain t (hP t ht) hle).2.2
          omega
  | succ fuel ih =>
      cases hdue : ts.due? horizon with
      | none => exact ⟨[], ts, drainWith_of_none hdue _⟩
      | some t =>
          obtain ⟨ht, hle⟩ := mem_running_of_due? hdue
          obtain ⟨hnext, hlater, hless⟩ := hagain t (hP t ht) hle
          have hlt := sum_fire_lt hts ht hless
          have hnodup : ((ts.fire t).running.map Timer.handle).Nodup :=
            (SameTimers.fire ts t).handles_eq ▸ hts
          have hPnext : ∀ u ∈ (ts.fire t).running, P u := by
            intro u hu
            rcases (mem_running_fire hts ht).mp hu with rfl | ⟨hu, -⟩
            · exact hnext
            · exact hP u hu
          obtain ⟨firings, later, hdrain⟩ := ih hnodup hPnext (by omega)
          refine ⟨⟨t.handle, t.nextDue⟩ :: firings, later, ?_⟩
          rw [drainWith_succ_of_some hdue, if_neg hlater, hdrain, Option.map_some]

theorem exists_drain? {horizon : R} (P : Timer R → Prop) (ahead : Timer R → Nat)
    (hagain : ∀ t, P t → t.nextDue ≤ horizon →
      P t.again ∧ ¬ t.again.nextDue ≤ t.nextDue ∧ ahead t.again < ahead t)
    (hbound : ∀ t, P t → ahead t ≤ Scalar.termBound t.nextDue t.period horizon)
    {ts : Timers R} (hts : (ts.running.map Timer.handle).Nodup) (hP : ∀ t ∈ ts.running, P t) :
    ∃ firings later, ts.drain? horizon = some (firings, later) := by
  have hfiring : ts.firingBound horizon =
      (ts.running.map fun t => Scalar.termBound t.nextDue t.period horizon).sum := by
    rw [firingBound, List.sum_eq_foldr, List.foldr_map]
  have hfuel : (ts.running.map ahead).sum ≤ ts.firingBound horizon :=
    hfiring ▸ List.sum_le_sum fun t ht => hbound t (hP t ht)
  obtain ⟨firings, later, hdrain⟩ := exists_drainWith hagain hts hP hfuel
  refine ⟨firings, later.advanceTo horizon, ?_⟩
  rw [drain?, hdrain, Option.map_some]

end ProseScore.Timers
