import ProseScore.Proofs.Config.Faults
import ProseScore.Proofs.Session.Continuity
import ProseScore.Proofs.Session.Openings

/-!
# Time in sessions

Time is kept twice, by the timers and by the recorder.  A command lets both clocks
stand still and starts timers from there, or it drains the timers up to a horizon
and brings both clocks to it.  The periods of timers come from the configuration
and are positive.
-/

namespace ProseScore

variable {R : Type} [Scalar R]

/-! ## Periods -/

theorem Settings.fallbackPeriod_pos (hstandard : ∀ t, 0 < (Timing.standard t : R))
    {settings : Settings R} {config : Config R} (h : settings.config = .ok config) :
    0 < config.fallbackPeriod := by
  obtain ⟨hfault, rfl⟩ := config_eq_ok_iff.mp h
  exact settings.timing_pos hstandard hfault .fallback

theorem Config.period_pos {config : Config R} (h : 0 < config.fallbackPeriod)
    (tokens : List (Token R)) : 0 < config.period tokens := by
  rw [period]
  split
  · assumption
  · exact h

namespace Session

theorem Coherent.period_pos {s : Session R} (hs : s.Coherent) (h : 0 < s.config.fallbackPeriod)
    {t : Timer R} (ht : t ∈ s.registry.timers.running) : 0 < t.period := by
  obtain ⟨i, l, hl, hhandle⟩ := hs.drives.mem_handles_iff.mp (List.mem_map_of_mem ht)
  rw [hs.drives.period_eq t ht i l hl hhandle, (hs.apt hl).period_eq]
  exact Config.period_pos h _

/-! ## The clock of the recorder -/

theorem recorder_now_timerFired (s : Session R) (handle : Nat) :
    (s.timerFired handle).2.recorder.now = s.recorder.now := by
  rcases s.timerFired_cases handle with hsilent | ⟨i, key, tokens, hplayed⟩
  · rw [hsilent]
  · rw [hplayed]
    rfl

theorem recorder_now_strike (s : Session R) (a : Attributes R) (key : Char) :
    (s.strike a key).2.recorder.now = s.recorder.now := by
  rw [strike]
  split
  · rfl
  · rfl

theorem recorder_now_keystroke (s : Session R) (caret : Caret) (key : Char) :
    (s.keystroke caret key).2.recorder.now = s.recorder.now := by
  simp only [keystroke]
  split
  · split
    · rfl
    · split
      · rfl
      · split
        · rfl
        · exact s.recorder_now_strike _ key
  · rfl

theorem recorder_now_tick (s : Session R) : s.tick.2.recorder.now = s.recorder.now := by
  show (s.playBodies _).2.recorder.now = s.recorder.now
  rw [recorder_playBodies]
  rfl

/-! ## The timers and the clocks through a command -/

theorem SameLoops.leadsTo {s s' : Session R} (h : s.SameLoops s') :
    s.registry.LeadsTo s'.registry := by
  rw [h.registry_eq]
  exact Registry.LeadsTo.refl s.registry

/-- Where no time goes by, timers are started and stopped while the clocks stand
still. -/
theorem leadsTo_of_step? {s s' : Session R} {c : Command R} {outcome : Outcome R}
    (hc : ∀ seconds, c ≠ .advance seconds) (h : s.step? c = some (outcome, s')) :
    s.registry.LeadsTo s'.registry ∧ s'.recorder.now = s.recorder.now := by
  have h := effect?_of_step? h
  cases c with
  | edit document =>
      obtain ⟨-, rfl⟩ := Prod.mk.inj (Option.some_inj.mp h)
      exact ⟨leadsTo_tick { s with document }, recorder_now_tick _⟩
  | tick =>
      obtain ⟨-, rfl⟩ := Prod.mk.inj (Option.some_inj.mp h)
      exact ⟨leadsTo_tick s, recorder_now_tick s⟩
  | keystroke caret key =>
      obtain ⟨-, rfl⟩ := Prod.mk.inj (Option.some_inj.mp h)
      exact ⟨(s.sameLoops_keystroke caret key).leadsTo, s.recorder_now_keystroke caret key⟩
  | timerFired handle =>
      obtain ⟨-, rfl⟩ := Prod.mk.inj (Option.some_inj.mp h)
      exact ⟨(s.sameLoops_timerFired handle).leadsTo, s.recorder_now_timerFired handle⟩
  | advance seconds => exact absurd rfl (hc seconds)
  | stopAll =>
      obtain ⟨-, rfl⟩ := Prod.mk.inj (Option.some_inj.mp h)
      exact ⟨Registry.LeadsTo.releaseAll _ _, rfl⟩

/-- A command starts and stops timers while the clocks stand still, or it drains them. -/
theorem step?_clocks {s s' : Session R} {c : Command R} {outcome : Outcome R}
    (h : s.step? c = some (outcome, s')) :
    s.registry.LeadsTo s'.registry ∧ s'.recorder.now = s.recorder.now ∨
    ∃ horizon firings last, Timers.Drains horizon s.registry.timers firings last ∧
      s'.registry.timers = last.advanceTo horizon ∧
      s'.recorder = (s.deliver firings).2.recorder.advanceTo horizon := by
  cases c with
  | advance seconds =>
      obtain ⟨reports, hadvance, -⟩ := effect?_advance_eq_some (effect?_of_step? h)
      obtain ⟨firings, timers, hdrain, rfl⟩ := advance?_eq_some hadvance
      obtain ⟨last, hdrains, rfl⟩ := Timers.drain?_eq_some hdrain
      exact Or.inr ⟨_, firings, last, hdrains, rfl, rfl⟩
  | _ => exact Or.inl (leadsTo_of_step? (by simp) h)

theorem Attainable.keeps_of_run? {config : Config R} {P : Session R → Prop}
    (hstep : ∀ s s' c outcome, s.Attainable config → P s → s.step? c = some (outcome, s') → P s')
    {s s' : Session R} (hs : s.Attainable config) (hP : P s) {commands : List (Command R)}
    {outcomes : List (Outcome R)} (hrun : s.run? commands = some (outcomes, s')) : P s' := by
  induction commands generalizing s outcomes with
  | nil =>
      obtain ⟨-, rfl⟩ := Prod.mk.inj (Option.some_inj.mp hrun)
      exact hP
  | cons c commands ih =>
      obtain ⟨outcome, next, rest, hone, hrest, -⟩ := run?_cons_eq_some hrun
      exact ih (hs.step hone) (hstep s next c outcome hs hP hone) hrest

theorem Reachable.of_step {config : Config R} {P : Session R → Prop}
    (hnew : ∀ drawn drawnLive, P (new config drawn drawnLive))
    (hstep : ∀ s s' c outcome, s.Attainable config → P s → s.step? c = some (outcome, s') → P s')
    {s : Session R} (h : Reachable config s) : P s := by
  obtain ⟨drawn, drawnLive, commands, outcomes, hrun⟩ := h
  exact Attainable.new.keeps_of_run? hstep (hnew drawn drawnLive) hrun

theorem advance?_of_drain? {s : Session R} {seconds : R}
    {firings : List (Firing R)} {timers : Timers R}
    (h : s.registry.timers.drain? (s.now + seconds) = some (firings, timers)) :
    s.advance? seconds = some ((s.deliver firings).1.filterMap Prod.snd,
      { (s.deliver firings).2 with
        registry := ⟨timers, s.registry.owners⟩
        recorder := (s.deliver firings).2.recorder.advanceTo (s.now + seconds) }) := by
  have hregistry := (s.sameLoops_deliver firings).registry_eq
  simp only [advance?, advanceTo?, h, Option.map_some, hregistry]

end Session

end ProseScore
