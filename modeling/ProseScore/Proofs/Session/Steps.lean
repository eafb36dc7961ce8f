import ProseScore.Proofs.Session.Playback

/-!
# The steps of a run

A run is looked at command by command, with the session that each command finds and
the one that it leaves.  In exact time every command has an answer, so a run has a
step for each of its commands.
-/

namespace ProseScore

/-- One command of a run. -/
structure Step (R : Type) where
  before : Session R
  command : Command R
  outcome : Outcome R
  after : Session R

namespace Session

variable {R : Type} [Scalar R]

/-- The steps of a run, up to a command without an answer. -/
def steps : Session R → List (Command R) → List (Step R)
  | _, [] => []
  | s, c :: cs =>
    match s.step? c with
    | none => []
    | some (outcome, s') => ⟨s, c, outcome, s'⟩ :: s'.steps cs

theorem steps_cons_of_step? {s s' : Session R} {c : Command R} {outcome : Outcome R}
    (h : s.step? c = some (outcome, s')) (commands : List (Command R)) :
    s.steps (c :: commands) = ⟨s, c, outcome, s'⟩ :: s'.steps commands := by
  rw [steps, h]

theorem step?_of_mem_steps {s : Session R} {commands : List (Command R)} {x : Step R}
    (h : x ∈ s.steps commands) : x.before.step? x.command = some (x.outcome, x.after) := by
  induction commands generalizing s with
  | nil => exact absurd h List.not_mem_nil
  | cons c commands ih =>
      cases hstep : s.step? c with
      | none =>
          rw [steps, hstep] at h
          exact absurd h List.not_mem_nil
      | some result =>
          rw [steps_cons_of_step? hstep] at h
          rcases List.mem_cons.mp h with rfl | h
          · exact hstep
          · exact ih h

/-! ## Sessions in exact time -/

/-- What holds in exact time after every command. -/
structure InOrder (config : Config Rat) (s : Session Rat) : Prop where
  config_eq : s.config = config
  fallback_pos : 0 < config.fallbackPeriod
  bounded : config.velocity.Bounded
  coherent : s.Coherent
  onTime : s.OnTime

namespace InOrder

variable {settings : Settings Rat} {config : Config Rat} {s s' : Session Rat}

theorem of_reachable (hconfig : settings.config = .ok config) (h : Reachable config s) :
    s.InOrder config where
  config_eq := h.attainable.config_and_coherent.1
  fallback_pos := Settings.fallbackPeriod_pos Timing.standard_pos hconfig
  bounded := not_lt.mp (Settings.accepted_velocity hconfig).ordered
  coherent := h.attainable.coherent
  onTime := h.onTime (Settings.fallbackPeriod_pos Timing.standard_pos hconfig)

theorem step (h : s.InOrder config) {c : Command Rat} {outcome : Outcome Rat}
    (hstep : s.step? c = some (outcome, s')) : s'.InOrder config where
  config_eq := (h.coherent.step hstep).1.trans h.config_eq
  fallback_pos := h.fallback_pos
  bounded := h.bounded
  coherent := (h.coherent.step hstep).2
  onTime := h.onTime.step h.coherent (h.config_eq ▸ h.fallback_pos) hstep

/-- Every sound has a velocity, so that nothing but endless time is without an answer. -/
theorem step?_eq (h : s.InOrder config) (c : Command Rat) : s.step? c = s.effect? c :=
  step?_eq_effect? (h.config_eq ▸ h.bounded) c

theorem advancing (h : s.InOrder config) : s.registry.timers.Advancing :=
  h.coherent.advancing (h.config_eq ▸ h.fallback_pos)

/-- Time comes to its horizon, and on the way it delivers each firing with its
report. -/
theorem exists_advance (h : s.InOrder config) (seconds : Rat) : ∃ firings last s',
    Timers.Drains (s.now + seconds) s.registry.timers firings last ∧
    s.advanceTo? (s.now + seconds) = some (firings.map fun f => (f, s.reportOf? f), s') ∧
    s.step? (.advance seconds) = some (.reports (firings.filterMap s.reportOf?), s') ∧
    s.Continues s' ∧ s'.registry.timers = last.advanceTo (s.now + seconds) := by
  obtain ⟨firings, timers, hdrain⟩ := h.advancing.exists_drain? (s.now + seconds)
  obtain ⟨last, hdrains, rfl⟩ := Timers.drain?_eq_some hdrain
  have hdelivered := deliver_fst (pairwise_due h.advancing hdrains)
    (h.onTime.now_le_due h.advancing hdrains)
  have hsame := s.sameLoops_deliver firings
  let s' : Session Rat := { (s.deliver firings).2 with
    registry := ⟨last.advanceTo (s.now + seconds), s.registry.owners⟩
    recorder := (s.deliver firings).2.recorder.advanceTo (s.now + seconds) }
  have hadvance : s.advanceTo? (s.now + seconds) =
      some (firings.map fun f => (f, s.reportOf? f), s') := by
    simp only [advanceTo?, hdrain, Option.map_some, hdelivered, hsame.registry_eq, s']
  refine ⟨firings, last, s', hdrains, hadvance, ?_, ?_, rfl⟩
  · simp only [h.step?_eq, effect?, advance?, hadvance, Option.map_some, List.filterMap_map]
    rfl
  · exact ⟨hsame.config_eq, hsame.document_eq, hsame.table_eq, rfl⟩

theorem exists_step? (h : s.InOrder config) (c : Command Rat) :
    ∃ outcome s', s.step? c = some (outcome, s') := by
  cases c with
  | advance seconds =>
      obtain ⟨firings, -, s', -, -, hstep, -⟩ := h.exists_advance seconds
      exact ⟨_, s', hstep⟩
  | _ => exact ⟨_, _, h.step?_eq _⟩

theorem map_command_steps (h : s.InOrder config) (commands : List (Command Rat)) :
    (s.steps commands).map Step.command = commands := by
  induction commands generalizing s with
  | nil => rfl
  | cons c commands ih =>
      obtain ⟨outcome, next, hstep⟩ := h.exists_step? c
      rw [steps_cons_of_step? hstep, List.map_cons, ih (h.step hstep)]

end InOrder
end Session
end ProseScore
