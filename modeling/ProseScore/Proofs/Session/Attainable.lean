import ProseScore.Proofs.Session.Coherence

/-!
# Sessions that come about

A host carries out commands, and between them it holds the recorder in its hands
and may put back another one.  Every session that comes about in this way is
coherent: each command keeps a coherent session so, and the recorder has no part
in it.
-/

namespace ProseScore.Session

variable {R : Type} [Scalar R]

/-- The sessions that come about under a configuration, by commands and by
exchanges of the recorder. -/
inductive Attainable (config : Config R) : Session R → Prop
  | new {drawn drawnLive : Generator} : Attainable config (new config drawn drawnLive)
  | step {s s' : Session R} {c : Command R} {outcome : Outcome R} :
      Attainable config s → s.step? c = some (outcome, s') → Attainable config s'
  | exchange {s : Session R} (recorder : Recorder R) :
      Attainable config s → Attainable config { s with recorder }

theorem run?_cons_eq_some {s s' : Session R} {c : Command R} {commands : List (Command R)}
    {outcomes : List (Outcome R)} (h : s.run? (c :: commands) = some (outcomes, s')) :
    ∃ outcome next rest, s.step? c = some (outcome, next) ∧
      next.run? commands = some (rest, s') ∧ outcomes = outcome :: rest := by
  obtain ⟨⟨outcome, next⟩, hstep, hrest⟩ := Option.bind_eq_some_iff.mp h
  obtain ⟨⟨rest, last⟩, hlast, heq⟩ := Option.bind_eq_some_iff.mp hrest
  obtain ⟨rfl, rfl⟩ := Prod.mk.inj (Option.some_inj.mp heq)
  exact ⟨outcome, next, rest, hstep, hlast, rfl⟩

theorem run?_cons_of_step? {s next : Session R} {c : Command R} {outcome : Outcome R}
    (h : s.step? c = some (outcome, next)) (commands : List (Command R)) :
    s.run? (c :: commands) =
      (next.run? commands).map fun (outcomes, s') => (outcome :: outcomes, s') := by
  cases hrest : next.run? commands <;> simp [run?, h, hrest]

theorem Attainable.of_run? {config : Config R} {s s' : Session R} (h : s.Attainable config)
    {commands : List (Command R)} {outcomes : List (Outcome R)}
    (hrun : s.run? commands = some (outcomes, s')) : s'.Attainable config := by
  induction commands generalizing s outcomes with
  | nil =>
      obtain ⟨-, rfl⟩ := Prod.mk.inj (Option.some_inj.mp hrun)
      exact h
  | cons c commands ih =>
      obtain ⟨outcome, next, rest, hstep, hrest, -⟩ := run?_cons_eq_some hrun
      exact ih (h.step hstep) hrest

theorem Reachable.attainable {config : Config R} {s : Session R} (h : Reachable config s) :
    s.Attainable config := by
  obtain ⟨drawn, drawnLive, commands, outcomes, hrun⟩ := h
  exact Attainable.new.of_run? hrun

theorem step?_edit {s : Session R} (hs : s.config.velocity.Bounded) (document : Document R) :
    s.step? (.edit document) = some (.reports (s.edit document).1, (s.edit document).2) :=
  step?_eq_effect? hs _

theorem step?_stopAll (s : Session R) : s.step? .stopAll = some (.stopped, s.stopAll) :=
  step?_eq_some_iff.mpr ⟨rfl, by simp [comesBack, stopAll, Recorder.silence]⟩

/-- The session after some edits. -/
def ofEdits (config : Config R) (documents : List (Document R)) : Session R :=
  documents.foldl (fun s document => (s.edit document).2)
    (new config (.ofSeed 0) (.ofSeed 1))

theorem run?_edits {s : Session R} (hs : s.config.velocity.Bounded)
    (documents : List (Document R)) :
    ∃ outcomes, s.run? (documents.map .edit) =
      some (outcomes, documents.foldl (fun s document => (s.edit document).2) s) := by
  induction documents generalizing s with
  | nil => exact ⟨[], rfl⟩
  | cons document documents ih =>
      have hnext : (s.edit document).2.config.velocity.Bounded := by
        rwa [show (s.edit document).2.config = s.config from config_tick _]
      obtain ⟨outcomes, hrun⟩ := ih hnext
      refine ⟨.reports (s.edit document).1 :: outcomes, ?_⟩
      rw [List.map_cons, run?_cons_of_step? (step?_edit hs document), hrun, List.foldl_cons]
      rfl

theorem reachable_ofEdits {config : Config R} (hconfig : config.velocity.Bounded)
    (documents : List (Document R)) : Reachable config (ofEdits config documents) := by
  obtain ⟨outcomes, hrun⟩ :=
    run?_edits (s := new config (.ofSeed 0) (.ofSeed 1)) hconfig documents
  exact ⟨_, _, documents.map .edit, outcomes, hrun⟩

theorem attainable_ofEdits {config : Config R} (hconfig : config.velocity.Bounded)
    (documents : List (Document R)) : (ofEdits config documents).Attainable config :=
  (reachable_ofEdits hconfig documents).attainable

/-! ## Commands keep sessions coherent -/

theorem coherent_stopAll {s : Session R} (h : s.Coherent) : s.stopAll.Coherent where
  drives := h.drives.clear
  fits := fun _ => trivial

/-- Time that goes by delivers firings, and none of them changes what runs. -/
theorem advance?_eq_some {s s' : Session R} {seconds : R} {reports : List (Report R)}
    (h : s.advance? seconds = some (reports, s')) :
    ∃ firings timers, s.registry.timers.drain? (s.now + seconds) = some (firings, timers) ∧
      s' = { (s.deliver firings).2 with
        registry := ⟨timers, s.registry.owners⟩
        recorder := (s.deliver firings).2.recorder.advanceTo (s.now + seconds) } := by
  obtain ⟨⟨delivered, s''⟩, hadvance, heq⟩ := Option.map_eq_some_iff.mp h
  obtain ⟨-, rfl⟩ := Prod.mk.inj heq
  obtain ⟨⟨firings, timers⟩, hdrain, hdelivered⟩ := Option.map_eq_some_iff.mp hadvance
  obtain ⟨-, rfl⟩ := Prod.mk.inj hdelivered
  refine ⟨firings, timers, hdrain, ?_⟩
  rw [(s.sameLoops_deliver firings).registry_eq]

theorem effect?_advance_eq_some {s s' : Session R} {seconds : R} {outcome : Outcome R}
    (h : s.effect? (.advance seconds) = some (outcome, s')) :
    ∃ reports, s.advance? seconds = some (reports, s') ∧ outcome = .reports reports := by
  obtain ⟨⟨reports, s''⟩, hadvance, heq⟩ := Option.map_eq_some_iff.mp h
  obtain ⟨rfl, rfl⟩ := Prod.mk.inj heq
  exact ⟨reports, hadvance, rfl⟩

theorem coherent_advance? {s s' : Session R} (hs : s.Coherent) {seconds : R}
    {reports : List (Report R)} (h : s.advance? seconds = some (reports, s')) : s'.Coherent := by
  obtain ⟨firings, timers, hdrain, rfl⟩ := advance?_eq_some h
  have hdelivered := (s.sameLoops_deliver firings).coherent hs
  refine ⟨?_, hdelivered.fits⟩
  have htable := (s.sameLoops_deliver firings).table_eq
  simp only [htable]
  exact hs.drives.of_sameTimers (Timers.SameTimers.drain? hdrain)

theorem Coherent.step {s s' : Session R} (hs : s.Coherent) {c : Command R} {outcome : Outcome R}
    (h : s.step? c = some (outcome, s')) : s'.config = s.config ∧ s'.Coherent := by
  have h := effect?_of_step? h
  cases c with
  | edit document =>
      obtain ⟨-, rfl⟩ := Prod.mk.inj (Option.some_inj.mp h)
      exact ⟨config_tick _, hs.edit document⟩
  | tick =>
      obtain ⟨-, rfl⟩ := Prod.mk.inj (Option.some_inj.mp h)
      exact ⟨config_tick s, hs.tick⟩
  | keystroke caret key =>
      obtain ⟨-, rfl⟩ := Prod.mk.inj (Option.some_inj.mp h)
      have hsame := s.sameLoops_keystroke caret key
      exact ⟨hsame.config_eq, hsame.coherent hs⟩
  | timerFired handle =>
      obtain ⟨-, rfl⟩ := Prod.mk.inj (Option.some_inj.mp h)
      have hsame := s.sameLoops_timerFired handle
      exact ⟨hsame.config_eq, hsame.coherent hs⟩
  | advance seconds =>
      obtain ⟨reports, hadvance, -⟩ := effect?_advance_eq_some h
      refine ⟨?_, coherent_advance? hs hadvance⟩
      obtain ⟨firings, timers, -, rfl⟩ := advance?_eq_some hadvance
      exact (s.sameLoops_deliver firings).config_eq
  | stopAll =>
      obtain ⟨-, rfl⟩ := Prod.mk.inj (Option.some_inj.mp h)
      exact ⟨rfl, coherent_stopAll hs⟩

/-- By induction on how the session came about. -/
theorem Attainable.config_and_coherent {config : Config R} {s : Session R}
    (h : s.Attainable config) : s.config = config ∧ s.Coherent := by
  induction h with
  | new => exact ⟨rfl, coherent_new config _ _⟩
  | step _ hstep ih =>
      obtain ⟨hconfig, hcoherent⟩ := ih.2.step hstep
      exact ⟨hconfig.trans ih.1, hcoherent⟩
  | exchange recorder _ ih => exact ⟨ih.1, ih.2.drives, ih.2.fits⟩

theorem Attainable.coherent {config : Config R} {s : Session R} (h : s.Attainable config) :
    s.Coherent :=
  h.config_and_coherent.2

end ProseScore.Session
