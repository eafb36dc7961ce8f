import ProseScore.Proofs.Session.Performed
import ProseScore.Proofs.Session.Voices

/-!
# Paragraphs do not interfere

All paragraphs share the table, the timers with their handles, the clocks and the
generators.  All the same a paragraph gets nothing of the others but drawn pitches.
Two runs whose documents agree at one paragraph keep the same loops there with the
same due times, report the same of it and record the same for it, up to the pitches of
what is random.  The other paragraphs only have a say in the handles.
-/

namespace ProseScore

variable {R : Type}

/-- Commands that are the same ones, but for the other paragraphs of a document. -/
inductive Command.AgreesAt (i : Nat) : Command R → Command R → Prop
  | edit {document document' : Document R} :
      document[i]? = document'[i]? → AgreesAt i (.edit document) (.edit document')
  | tick : AgreesAt i .tick .tick
  | keystroke (caret : Caret) (key : Char) :
      AgreesAt i (.keystroke caret key) (.keystroke caret key)
  | advance (seconds : R) : AgreesAt i (.advance seconds) (.advance seconds)
  | stopAll : AgreesAt i .stopAll .stopAll

/-- Answers to a keystroke that differ at most in a pitch that was drawn. -/
inductive Keystroke.Alike (random : Bool) : Keystroke R → Keystroke R → Prop
  | ignored : Alike random .ignored .ignored
  | silenced : Alike random .silenced .silenced
  | played {e e' : NoteEvent R} : e.Alike random 1 e' → Alike random (.played e) (.played e')

namespace Session

/-- Two sessions in which a paragraph is the same and has the same voices. -/
structure AlikeAt (i : Nat) (s s' : Session R) : Prop where
  document_eq : s.document[i]? = s'.document[i]?
  isActive_eq : (s.table.state i).isActive = (s'.table.state i).isActive
  voices_eq : s.voices i = s'.voices i
  now_eq : s.now = s'.now

variable [Scalar R]

/-! ## Keystrokes -/

theorem strike_alike {s s' : Session R} (hconfig : s.config = s'.config)
    (hnow : s.recorder.now = s'.recorder.now) (a : Attributes R) (key : Char) :
    Keystroke.Alike (key = s.config.symbols .random) (s.strike a key).1 (s'.strike a key).1 := by
  by_cases hkey : key = s.config.symbols .random
  · have hdrawn : ∀ g, ∃ p g', Sound.ofChar? s.config false false a key g =
        (some (.ofPitches s.config false a [p]), g') := by
      intro g
      rw [Sound.ofChar?, Bool.false_or, if_pos (decide_eq_true hkey)]
      rcases g.next with ⟨p, g'⟩
      exact ⟨p, g', rfl⟩
    obtain ⟨p, g, hp⟩ := hdrawn s.liveGenerator
    obtain ⟨p', g', hp'⟩ := hdrawn s'.liveGenerator
    simp only [strike, ← hconfig, hp, hp', ← hnow]
    apply Keystroke.Alike.played
    exact ⟨fun hfixed => absurd hkey (of_decide_eq_false hfixed), rfl, rfl, rfl⟩
  · have hown : ∀ g, Sound.ofChar? s.config false false a key g =
        ((Pitch.ofLetter? key).map fun p => .ofPitches s.config false a [p], g) := by
      intro g
      rw [Sound.ofChar?, Bool.false_or, if_neg (by simpa using hkey)]
    simp only [strike, ← hconfig, hown, ← hnow]
    cases Pitch.ofLetter? key with
    | none => exact Keystroke.Alike.ignored
    | some p => exact Keystroke.Alike.played ⟨fun _ => rfl, rfl, rfl, rfl⟩

/-- What is typed into a paragraph sounds as the paragraph tells. -/
theorem keystroke_alike {s s' : Session R} (hconfig : s.config = s'.config)
    (hnow : s.recorder.now = s'.recorder.now) {caret : Caret}
    (hdocument : s.document[caret.paragraph]? = s'.document[caret.paragraph]?) (key : Char) :
    Keystroke.Alike (key = s.config.symbols .random) (s.keystroke caret key).1
      (s'.keystroke caret key).1 := by
  simp only [keystroke, ← hconfig, ← hdocument]
  split
  · split
    · exact Keystroke.Alike.ignored
    · split
      · exact Keystroke.Alike.ignored
      · split
        · exact Keystroke.Alike.silenced
        · exact strike_alike hconfig hnow _ key
  · exact Keystroke.Alike.ignored

namespace AlikeAt

variable {i : Nat} {s s' : Session R}

/-! ## Ticks and stops -/

omit [Scalar R] in
theorem score?_eq (h : s.AlikeAt i s') (hconfig : s.config = s'.config) :
    s.score? i = s'.score? i := by
  rw [score?, score?, h.document_eq, hconfig]

omit [Scalar R] in
theorem of_sameLoops {t t' : Session R} (h : s.AlikeAt i s') (hsame : s.SameLoops t)
    (hsame' : s'.SameLoops t') : t.AlikeAt i t' where
  document_eq := by rw [hsame.document_eq, hsame'.document_eq, h.document_eq]
  isActive_eq := by rw [hsame.table_eq, hsame'.table_eq, h.isActive_eq]
  voices_eq := by
    rw [voices, voices, hsame.table_eq, hsame.registry_eq, hsame'.table_eq, hsame'.registry_eq]
    exact h.voices_eq
  now_eq := by
    rw [now, now, hsame.registry_eq, hsame'.registry_eq]
    exact h.now_eq

theorem stopAll (h : s.AlikeAt i s') : s.stopAll.AlikeAt i s'.stopAll where
  document_eq := h.document_eq
  isActive_eq := rfl
  voices_eq := rfl
  now_eq := by
    have hnow := (Registry.LeadsTo.releaseAll s.registry (s.registry.owners.map Prod.fst)).now_eq
    have hnow' := (Registry.LeadsTo.releaseAll s'.registry (s'.registry.owners.map Prod.fst)).now_eq
    exact hnow.trans (h.now_eq.trans hnow'.symm)

section Tick

variable (h : s.AlikeAt i s') (hconfig : s.config = s'.config)

include h hconfig

theorem tick (hs : s.registry.Drives s.table.loops) (hs' : s'.registry.Drives s'.table.loops)
    (hafter : s.tick.2.registry.Drives s.tick.2.table.loops)
    (hafter' : s'.tick.2.registry.Drives s'.tick.2.table.loops) :
    s.tick.2.AlikeAt i s'.tick.2 where
  document_eq := by
    rw [document_tick, document_tick]
    exact h.document_eq
  isActive_eq := by
    rw [Bool.eq_iff_iff, isActive_tick_iff, isActive_tick_iff, h.score?_eq hconfig]
  voices_eq := by
    cases hscore : s.score? i with
    | none => rw [voices_tick_of_none hscore, voices_tick_of_none (h.score?_eq hconfig ▸ hscore)]
    | some score =>
        obtain ⟨p, hp, hwants, -⟩ := score?_eq_some_iff.mp hscore
        rw [voices_tick hs hafter hp hwants,
          voices_tick hs' hafter' (h.document_eq ▸ hp) (hconfig ▸ hwants), ← h.voices_eq, ← hconfig]
        simp only [beginning, h.now_eq]
  now_eq := by
    rw [now, now, (leadsTo_tick s).now_eq, (leadsTo_tick s').now_eq]
    exact h.now_eq

theorem filter_tick (hnow : s.recorder.now = s'.recorder.now) :
    s.tick.1.filter (·.paragraph = i) = s'.tick.1.filter (·.paragraph = i) := by
  rw [filter_tick_fst, filter_tick_fst, Activity.opening?, Activity.opening?, h.isActive_eq,
    h.score?_eq hconfig, hnow]

end Tick

/-! ## Time that goes by -/

section Drain

variable {s s' : Session Rat} (h : s.AlikeAt i s') {horizon : Rat}
  {firings firings' : List (Firing Rat)} {last last' : Timers Rat}
  (hdrains : Timers.Drains horizon s.registry.timers firings last)
  (hdrains' : Timers.Drains horizon s'.registry.timers firings' last')
  (hs : s.registry.timers.Advancing) (hs' : s'.registry.timers.Advancing)

include h hdrains hdrains' hs hs'

/-- Time goes by in a paragraph as its own timers tell. -/
theorem of_drains {t t' : Session Rat} (hafter : s.Continues t) (hafter' : s'.Continues t')
    (htimers : t.registry.timers = last.advanceTo horizon)
    (htimers' : t'.registry.timers = last'.advanceTo horizon) : t.AlikeAt i t' where
  document_eq := by
    rw [hafter.document_eq, hafter'.document_eq]
    exact h.document_eq
  isActive_eq := by
    rw [hafter.table_eq, hafter'.table_eq]
    exact h.isActive_eq
  voices_eq := by
    rw [voices, voices, hafter.table_eq, hafter'.table_eq, htimers, htimers',
      ← List.forall₂_eq_eq_eq, List.forall₂_map_left_iff, List.forall₂_map_right_iff]
    apply forall₂_of_map_eq h.voices_eq
    intro l _ l' _ hvoice
    obtain ⟨hkey, hperiod, hcourse⟩ := Voice.mk.inj hvoice
    have hlater := hdrains.course?_eq hs hdrains' hs' hcourse
    rw [hkey, hperiod]
    exact congrArg (Voice.mk l'.key l'.period) hlater
  now_eq := by
    rw [now, now, htimers, htimers', hdrains.now_advanceTo, hdrains'.now_advanceTo]
    exact congrArg (max · horizon) h.now_eq

theorem filter_reports_eq (hconfig : s.config = s'.config)
    (hdrives : s.registry.Drives s.table.loops) (hdrives' : s'.registry.Drives s'.table.loops) :
    (firings.filterMap s.reportOf?).filter (·.paragraph = i) =
      (firings'.filterMap s'.reportOf?).filter (·.paragraph = i) := by
  have hcourses : ((s.table.loops i).map LoopTimer.handle).map s.registry.timers.course? =
      ((s'.table.loops i).map LoopTimer.handle).map s'.registry.timers.course? := by
    have hvoices := congrArg (List.map Voice.course?) h.voices_eq
    rw [voices, voices, List.map_map, List.map_map] at hvoices
    rw [List.map_map, List.map_map]
    exact hvoices
  have hbeats := hdrains.beats_eq hs hdrains' hs' (hdrives.increasing_loops i)
    (hdrives'.increasing_loops i) hcourses
  have hreport : ∀ key time, s.loopReport? i key time = s'.loopReport? i key time := by
    intro key time
    rw [loopReport?, loopReport?, h.document_eq, hconfig]
  rw [filter_reports hdrives, filter_reports hdrives', hbeats, h.voices_eq]
  simp only [hreport]

end Drain

/-! ## One command -/

section Step

variable {config : Config Rat} {s s' t t' : Session Rat} {c c' : Command Rat}
  {outcome outcome' : Outcome Rat}

theorem recorder_now_eq (h : s.AlikeAt i s') (hs : s.InOrder config) (hs' : s'.InOrder config) :
    s.recorder.now = s'.recorder.now := by
  rw [hs.onTime.recorder_now_eq, hs'.onTime.recorder_now_eq, h.now_eq]

/-- A command keeps sessions alike at a paragraph and reports the same of it. -/
theorem step (h : s.AlikeAt i s') (hs : s.InOrder config) (hs' : s'.InOrder config)
    (hc : c.AgreesAt i c') (hstep : s.step? c = some (outcome, t))
    (hstep' : s'.step? c' = some (outcome', t')) :
    t.AlikeAt i t' ∧ outcome.toReports.filter (·.paragraph = i) =
      outcome'.toReports.filter (·.paragraph = i) := by
  have hconfig : s.config = s'.config := hs.config_eq.trans hs'.config_eq.symm
  have hnow := h.recorder_now_eq hs hs'
  have heffect := effect?_of_step? hstep
  have heffect' := effect?_of_step? hstep'
  cases hc with
  | @edit document document' hdocument =>
      obtain ⟨rfl, rfl⟩ := Prod.mk.inj (Option.some_inj.mp heffect)
      obtain ⟨rfl, rfl⟩ := Prod.mk.inj (Option.some_inj.mp heffect')
      have hedited : AlikeAt i { s with document := document } { s' with document := document' } :=
        ⟨hdocument, h.isActive_eq, h.voices_eq, h.now_eq⟩
      exact ⟨hedited.tick hconfig hs.coherent.drives hs'.coherent.drives
        (hs.coherent.edit document).drives (hs'.coherent.edit document').drives,
        hedited.filter_tick hconfig hnow⟩
  | tick =>
      obtain ⟨rfl, rfl⟩ := Prod.mk.inj (Option.some_inj.mp heffect)
      obtain ⟨rfl, rfl⟩ := Prod.mk.inj (Option.some_inj.mp heffect')
      exact ⟨h.tick hconfig hs.coherent.drives hs'.coherent.drives hs.coherent.tick.drives
        hs'.coherent.tick.drives, h.filter_tick hconfig hnow⟩
  | keystroke caret key =>
      obtain ⟨rfl, rfl⟩ := Prod.mk.inj (Option.some_inj.mp heffect)
      obtain ⟨rfl, rfl⟩ := Prod.mk.inj (Option.some_inj.mp heffect')
      exact ⟨h.of_sameLoops (s.sameLoops_keystroke caret key) (s'.sameLoops_keystroke caret key),
        rfl⟩
  | advance seconds =>
      obtain ⟨firings, last, _, hdrains, -, hone, hafter, htimers⟩ := hs.exists_advance seconds
      obtain ⟨firings', last', _, hdrains', -, hone', hafter', htimers'⟩ :=
        hs'.exists_advance seconds
      obtain ⟨rfl, rfl⟩ := Prod.mk.inj (Option.some_inj.mp (hone.symm.trans hstep))
      obtain ⟨rfl, rfl⟩ := Prod.mk.inj (Option.some_inj.mp (hone'.symm.trans hstep'))
      -- The clocks agree, so both drains have the same horizon.
      rw [← h.now_eq] at hdrains' htimers'
      constructor
      · exact h.of_drains hdrains hdrains' hs.advancing hs'.advancing hafter hafter' htimers
          htimers'
      · exact h.filter_reports_eq hdrains hdrains' hs.advancing hs'.advancing hconfig
          hs.coherent.drives hs'.coherent.drives
  | stopAll =>
      obtain ⟨rfl, rfl⟩ := Prod.mk.inj (Option.some_inj.mp heffect)
      obtain ⟨rfl, rfl⟩ := Prod.mk.inj (Option.some_inj.mp heffect')
      exact ⟨h.stopAll, rfl⟩

end Step

end AlikeAt

end Session

/-! ## Runs -/

section

variable [Scalar R]

namespace Step

/-- What is performed of the reports of a step. -/
def performed (x : Step R) : List (Performed R) :=
  (x.after.performAll x.before.generator x.outcome.toReports).1

/-- What a step has recorded is what it has performed and what it has typed. -/
def Records (x : Step R) : Prop :=
  x.after.recorder.events.toList =
    x.before.recorder.events.toList ++ x.performed.flatMap Performed.events ++ x.outcome.typed

/-- Two steps that come to the same for a paragraph, up to handles and up to the
pitches of what is random. -/
structure AlikeAt (i : Nat) (x x' : Step R) : Prop where
  isActive_eq : (x.after.table.state i).isActive = (x'.after.table.state i).isActive
  voices_eq : x.after.voices i = x'.after.voices i
  exists_due : ∀ v ∈ x.after.voices i, ∃ due, v.course? = some (v.period, due)
  reports_eq : x.outcome.toReports.filter (·.paragraph = i) =
    x'.outcome.toReports.filter (·.paragraph = i)
  performed_alike : List.Forall₂ Performed.Alike
    (x.performed.filter (·.report.paragraph = i)) (x'.performed.filter (·.report.paragraph = i))
  typed_alike : ∀ caret key, x.command = .keystroke caret key → caret.paragraph = i →
    ∃ k k', x.outcome = .keystroke k ∧ x'.outcome = .keystroke k' ∧
      Keystroke.Alike (key = x.before.config.symbols .random) k k'

end Step

theorem Session.records_of_mem_steps {s : Session R} {commands : List (Command R)} {x : Step R}
    (hx : x ∈ s.steps commands) : x.Records :=
  events_effect? (effect?_of_step? (step?_of_mem_steps hx))

end

namespace Session

variable {settings : Settings Rat} {config : Config Rat} {i : Nat}

theorem AlikeAt.alike_step {x x' : Step Rat} (h : x.before.AlikeAt i x'.before)
    (hs : x.before.InOrder config) (hs' : x'.before.InOrder config)
    (hc : x.command.AgreesAt i x'.command)
    (hstep : x.before.step? x.command = some (x.outcome, x.after))
    (hstep' : x'.before.step? x'.command = some (x'.outcome, x'.after)) : x.AlikeAt i x' := by
  obtain ⟨hafter, hreports⟩ := h.step hs hs' hc hstep hstep'
  have hlater := hs.step hstep
  have hlater' := hs'.step hstep'
  refine ⟨hafter.isActive_eq, hafter.voices_eq, fun v hv => ?_, hreports, ?_, ?_⟩
  · exact hlater.coherent.course?_of_mem_voices hv
  · exact forall₂_performAll (hlater.config_eq.trans hlater'.config_eq.symm) hafter.document_eq _ _
      hreports
  · intro caret key hkeystroke hcaret
    rw [hkeystroke] at hc hstep
    generalize x'.command = c' at hc hstep'
    cases hc
    have heffect := effect?_of_step? hstep
    have heffect' := effect?_of_step? hstep'
    rw [effect?_keystroke] at heffect heffect'
    obtain ⟨houtcome, -⟩ := Prod.mk.inj (Option.some_inj.mp heffect)
    obtain ⟨houtcome', -⟩ := Prod.mk.inj (Option.some_inj.mp heffect')
    refine ⟨_, _, houtcome.symm, houtcome'.symm, ?_⟩
    apply keystroke_alike (hs.config_eq.trans hs'.config_eq.symm) (h.recorder_now_eq hs hs')
    rw [hcaret]
    exact h.document_eq

theorem AlikeAt.steps {s s' : Session Rat} (h : s.AlikeAt i s') (hs : s.InOrder config)
    (hs' : s'.InOrder config) {commands commands' : List (Command Rat)}
    (hcommands : List.Forall₂ (Command.AgreesAt i) commands commands') :
    List.Forall₂ (Step.AlikeAt i) (s.steps commands) (s'.steps commands') := by
  -- By induction on the commands: each finds sessions that are alike.
  induction hcommands generalizing s s' with
  | nil => exact List.Forall₂.nil
  | @cons c c' commands commands' hc _ ih =>
      obtain ⟨outcome, next, hstep⟩ := hs.exists_step? c
      obtain ⟨outcome', next', hstep'⟩ := hs'.exists_step? c'
      rw [steps_cons_of_step? hstep, steps_cons_of_step? hstep']
      have hafter := (h.step hs hs' hc hstep hstep').1
      apply List.Forall₂.cons
      · exact AlikeAt.alike_step h hs hs' hc hstep hstep'
      · exact ih hafter (hs.step hstep) (hs'.step hstep')

/-- **Paragraphs do not interfere.** Two runs of the same commands, with documents that
agree at one paragraph and are any ones beside it and with any generators, have a step
for each command, and each step of the one is like that of the other there.  The
paragraph is active in both or in neither, its loops have the same keys, periods and due
times in the same order, and its reports are the same ones in the same order.  What is
recorded of these, and what is typed into the paragraph, is the same but for the pitches
of what is random; and nothing is recorded but what is performed and typed. -/
theorem paragraphs_do_not_interfere (hconfig : settings.config = .ok config) (i : Nat)
    {commands commands' : List (Command Rat)}
    (hcommands : List.Forall₂ (Command.AgreesAt i) commands commands')
    (drawn drawnLive drawn' drawnLive' : Generator) :
    let steps := (new config drawn drawnLive).steps commands
    let steps' := (new config drawn' drawnLive').steps commands'
    steps.map Step.command = commands ∧ steps'.map Step.command = commands' ∧
      List.Forall₂ (Step.AlikeAt i) steps steps' ∧
      (∀ x ∈ steps ++ steps', x.Records) := by
  intro steps steps'
  have hnew : ∀ g g', (new config g g').InOrder config := fun g g' =>
    InOrder.of_reachable hconfig ⟨g, g', [], [], rfl⟩
  have halike : (new config drawn drawnLive).AlikeAt i (new config drawn' drawnLive') :=
    ⟨rfl, rfl, rfl, rfl⟩
  refine ⟨(hnew _ _).map_command_steps commands, (hnew _ _).map_command_steps commands',
    halike.steps (hnew _ _) (hnew _ _) hcommands, fun x hx => ?_⟩
  rcases List.mem_append.mp hx with hx | hx
  · exact records_of_mem_steps hx
  · exact records_of_mem_steps hx

/-- A paragraph behind another one that has two loops in one run and none in the other. -/
theorem second_paragraph_plays_alike :
    let settings : Settings Rat := {}
    let commands (first : String) : List (Command Rat) :=
      [.edit [.plain first.toList, .plain "[?b c] d.".toList], .keystroke ⟨0, 1⟩ 'c', .advance 1]
    let steps (first : String) :=
      (new settings.fill (.ofSeed 0) (.ofSeed 1)).steps (commands first)
    settings.config = .ok settings.fill ∧
      List.Forall₂ (Command.AgreesAt 1) (commands "(x") (commands "[x y] [?q].") ∧
      List.Forall₂ (Step.AlikeAt 1) (steps "(x") (steps "[x y] [?q].") ∧
      ((steps "(x").map fun x => (x.after.table.loops 1).map LoopTimer.handle) =
        [[0], [0], [0]] ∧
      ((steps "[x y] [?q].").map fun x => (x.after.table.loops 1).map LoopTimer.handle) =
        [[2], [2], [2]] ∧
      ((steps "[x y] [?q].").map fun x =>
        (x.outcome.toReports.filter (·.paragraph = 1)).map fun r => (r.start, r.letters)) =
        [[(0, [2])], [], [(68 / 100, [0, 1])]] := by
  intro settings commands steps
  have hconfig : settings.config = .ok settings.fill := Settings.config_empty_exact
  have hcommands : List.Forall₂ (Command.AgreesAt 1) (commands "(x") (commands "[x y] [?q].") :=
    .cons (.edit rfl) (.cons (.keystroke _ _) (.cons (.advance 1) .nil))
  obtain ⟨-, -, halike, -⟩ := paragraphs_do_not_interfere hconfig 1 hcommands
    (.ofSeed 0) (.ofSeed 1) (.ofSeed 0) (.ofSeed 1)
  exact ⟨hconfig, hcommands, halike, by decide +kernel, by decide +kernel, by decide +kernel⟩

end Session
end ProseScore
