import ProseScore.Proofs.Session.Playback
import ProseScore.Proofs.Timer.Slices

/-!
# Sessions in slices of time

A host lets time go on in slices.  How it cuts them makes no difference: the same
firings are delivered in the same order, so that the same pitches are drawn, and
both clocks come to the same time.
-/

namespace ProseScore

theorem Recorder.advanceTo_advanceTo {τ : Type} [LinearOrder τ] (r : Recorder τ) {time later : τ}
    (h : time ≤ later) : (r.advanceTo time).advanceTo later = r.advanceTo later := by
  have hnow : ((r.advanceTo time).advanceTo later).now = (r.advanceTo later).now := by
    rw [now_advanceTo, now_advanceTo, now_advanceTo, max_assoc, max_eq_right h]
  exact congrArg (fun now => { r with now }) hnow

namespace Session

variable {R : Type} [Scalar R]

theorem deliver_append (s : Session R) (firings rest : List (Firing R)) :
    s.deliver (firings ++ rest) =
      ((s.deliver firings).1 ++ ((s.deliver firings).2.deliver rest).1,
        ((s.deliver firings).2.deliver rest).2) := by
  induction firings generalizing s with
  | nil => rfl
  | cons f firings ih => simp [deliver, ih]

/-- What a firing plays does not hang on when the timers are due. -/
theorem timerFired_timers (s : Session R) (timers : Timers R) (handle : Nat) :
    timerFired { s with registry := ⟨timers, s.registry.owners⟩ } handle =
      ((s.timerFired handle).1,
        { (s.timerFired handle).2 with registry := ⟨timers, s.registry.owners⟩ }) := by
  have howner : Registry.owner? ⟨timers, s.registry.owners⟩ handle = s.registry.owner? handle := rfl
  simp only [timerFired, howner]
  cases s.registry.owner? handle with
  | none => rfl
  | some owner =>
      cases hp : s.document[owner.paragraph]? with
      | none => simp only [hp]
      | some p =>
          cases hl : (Score.ofParagraph s.config p).loop owner.key with
          | nil => simp only [hp, hl]
          | cons t ts => simp only [hp, hl, play, schedule]

theorem deliver_timers (s : Session R) (timers : Timers R) (firings : List (Firing R)) :
    deliver { s with registry := ⟨timers, s.registry.owners⟩ } firings =
      ((s.deliver firings).1,
        { (s.deliver firings).2 with registry := ⟨timers, s.registry.owners⟩ }) := by
  induction firings generalizing s with
  | nil => rfl
  | cons f firings ih =>
      let moved := { s with recorder := s.recorder.advanceTo f.due }
      have hfired := moved.timerFired_timers timers f.handle
      have hsame := (moved.sameLoops_timerFired f.handle).registry_eq
      have hrest := ih (moved.timerFired f.handle).2
      rw [hsame] at hrest
      simp only [deliver]
      rw [hfired, hrest]

/-- The clock may be set to any time at which nothing is delivered yet. -/
theorem deliver_advanceTo (s : Session Rat) {horizon later : Rat} (hle : horizon ≤ later)
    {firings : List (Firing Rat)} (hdue : ∀ f ∈ firings, horizon ≤ f.due) :
    let moved := { s with recorder := s.recorder.advanceTo horizon }
    (moved.deliver firings).1 = (s.deliver firings).1 ∧
      { (moved.deliver firings).2 with
        recorder := (moved.deliver firings).2.recorder.advanceTo later } =
      { (s.deliver firings).2 with
        recorder := (s.deliver firings).2.recorder.advanceTo later } := by
  intro moved
  cases firings with
  | nil =>
      refine ⟨rfl, ?_⟩
      show { s with recorder := (s.recorder.advanceTo horizon).advanceTo later } = _
      rw [Recorder.advanceTo_advanceTo s.recorder hle]
      rfl
  | cons f firings =>
      -- The first firing sets the clock anyway.
      have hf := Recorder.advanceTo_advanceTo s.recorder (hdue f List.mem_cons_self)
      have hsame : moved.deliver (f :: firings) = s.deliver (f :: firings) := by
        rw [deliver, deliver, hf]
      exact ⟨congrArg Prod.fst hsame, by rw [hsame]⟩

/-- **Slices of time add up.** Time that goes on by `a` and then by `b` reports what
time that goes on by `a + b` reports, and the sessions that come of it are the same
in everything. -/
theorem advance_add {settings : Settings Rat} {config : Config Rat}
    (hconfig : settings.config = .ok config) {s : Session Rat} (hs : s.Attainable config)
    {a b : Rat} (ha : 0 ≤ a) (hb : 0 ≤ b) :
    ∃ first s₁ second s₂, s.advance? a = some (first, s₁) ∧
      s₁.advance? b = some (second, s₂) ∧ s.advance? (a + b) = some (first ++ second, s₂) := by
  have hpos := Settings.fallbackPeriod_pos Timing.standard_pos hconfig
  have hadvancing : s.registry.timers.Advancing :=
    hs.coherent.advancing (hs.config_and_coherent.1 ▸ hpos)
  have hle : s.now + a ≤ s.now + (a + b) := by
    rw [← add_assoc]
    exact le_add_of_nonneg_right hb
  -- The timers: two drains, and both of them at once.
  obtain ⟨firings, mid, hfirst⟩ := hadvancing.exists_drain? (s.now + a)
  have hmid : mid.Advancing := hadvancing.of_sameTimers (Timers.SameTimers.drain? hfirst)
  obtain ⟨rest, last, hsecond⟩ := hmid.exists_drain? (s.now + (a + b))
  have hall := hadvancing.drain?_append hle hfirst hsecond
  obtain ⟨halt, hdrains, rfl⟩ := Timers.drain?_eq_some hfirst
  have hclock : (halt.advanceTo (s.now + a)).now = s.now + a :=
    hdrains.now_advanceTo.trans (max_eq_right (le_add_of_nonneg_right ha))
  have hdue : ∀ f ∈ rest, s.now + a ≤ f.due := by
    obtain ⟨stop, hresumed, -⟩ := Timers.drain?_eq_some hsecond
    intro f hf
    obtain ⟨⟨t, ht, k, rfl⟩, -⟩ := (hresumed.mem_iff hmid).mp hf
    exact (hdrains.lt_nextDue ht).le.trans (Timer.nextDue_le_term (hmid.period_pos t ht) k)
  -- The deliveries: the first ones are the same, and the others begin behind them.
  let played := (s.deliver firings).2
  let moved : Session Rat := { played with recorder := played.recorder.advanceTo (s.now + a) }
  let s₁ : Session Rat := { moved with
    registry := ⟨halt.advanceTo (s.now + a), s.registry.owners⟩ }
  have howners : moved.registry.owners = s.registry.owners :=
    congrArg Registry.owners (s.sameLoops_deliver firings).registry_eq
  have hresumed : s₁.deliver rest = ((moved.deliver rest).1, { (moved.deliver rest).2 with
      registry := ⟨halt.advanceTo (s.now + a), s.registry.owners⟩ }) := by
    have hdelivered := moved.deliver_timers (halt.advanceTo (s.now + a)) rest
    rw [howners] at hdelivered
    exact hdelivered
  obtain ⟨hreports, hafter⟩ := played.deliver_advanceTo hle hdue
  have hnow : s₁.now + b = s.now + (a + b) :=
    (congrArg (· + b) hclock).trans (add_assoc _ _ _)
  have hone := advance?_of_drain? hfirst
  have htwo := advance?_of_drain? (s := s₁) (hnow.symm ▸ hsecond)
  have hboth := advance?_of_drain? hall
  refine ⟨_, s₁, _, _, hone, htwo, hboth.trans (congrArg some (Prod.ext ?_ ?_))⟩
  · rw [deliver_append, List.filterMap_append, hresumed, hreports]
  · have hlast := congrArg (fun s' : Session Rat =>
      { s' with registry := ⟨last, s.registry.owners⟩ }) hafter
    rw [deliver_append, hresumed, hnow]
    exact hlast.symm

/-- Time is cut where two loops are due at once. -/
theorem advance_add_where_loops_meet :
    let settings : Settings Rat := {}
    let s := ofEdits settings.fill [Document.ofText "[a] [b c].".toList]
    settings.config = .ok settings.fill ∧ s.Attainable settings.fill ∧
      ∃ first s₁ second s₂, s.advance? (68 / 100) = some (first, s₁) ∧
        s₁.advance? (34 / 100) = some (second, s₂) ∧
        s.advance? (68 / 100 + 34 / 100) = some (first ++ second, s₂) ∧
        first.map Report.start = [34 / 100, 68 / 100, 68 / 100] ∧
        second.map Report.start = [102 / 100] := by
  intro settings s
  have hconfig : settings.config = .ok settings.fill := Settings.config_empty_exact
  have hs : s.Attainable settings.fill := attainable_ofEdits (by decide +kernel) _
  have ha : (0 : Rat) ≤ 68 / 100 := by decide +kernel
  have hb : (0 : Rat) ≤ 34 / 100 := by decide +kernel
  obtain ⟨first, s₁, second, s₂, hone, htwo, hboth⟩ := advance_add hconfig hs ha hb
  have hstarts : (s.advance? (68 / 100)).map (fun r => r.1.map Report.start) =
      some [34 / 100, 68 / 100, 68 / 100] := by decide +kernel
  have hall : (s.advance? (68 / 100 + 34 / 100)).map (fun r => r.1.map Report.start) =
      some [34 / 100, 68 / 100, 68 / 100, 102 / 100] := by decide +kernel
  rw [hone] at hstarts
  rw [hboth] at hall
  have hfirst : first.map Report.start = [34 / 100, 68 / 100, 68 / 100] :=
    Option.some_inj.mp hstarts
  have hstarts' : (first ++ second).map Report.start =
      [34 / 100, 68 / 100, 68 / 100] ++ [102 / 100] := Option.some_inj.mp hall
  rw [List.map_append, hfirst] at hstarts'
  exact ⟨hconfig, hs, first, s₁, second, s₂, hone, htwo, hboth, hfirst,
    List.append_cancel_left hstarts'⟩

end Session
end ProseScore
