import ProseScore.Proofs.Session.Accounts

/-!
# The seed decides pitches

The seed is part of the configuration, and generators go through everything that plays.
All the same nothing but pitches hangs on them.  Two sessions that differ in the seed, in
the generators and in the pitches that have been drawn answer each command alike, and the
sounds that they record come from the same letters and keys at the same times.
-/

namespace ProseScore

variable {R : Type}

/-! ## What does not read the seed -/

def Config.withSeed (config : Config R) (seed : Option UInt64) : Config R :=
  { config with seed }

section WithSeed

variable (config : Config R) (seed : Option UInt64)

theorem Token.read_withSeed (ms : List (Mark R)) :
    read (config.withSeed seed) ms = read config ms := by
  induction ms with
  | nil => rfl
  | cons m ms ih =>
      rw [read, read, ih]
      rfl

theorem Token.ofCells_withSeed (excluded : List Extent) (cs : List (Cell R)) :
    ofCells (config.withSeed seed) excluded cs = ofCells config excluded cs :=
  congrArg Prod.snd (Token.read_withSeed config seed _)

theorem Score.ofParagraph_withSeed (p : Paragraph R) :
    ofParagraph (config.withSeed seed) p = ofParagraph config p := by
  simp only [ofParagraph, ofCells, Token.ofCells_withSeed]
  rfl

theorem Score.ofActive?_withSeed : (ofActive? (config.withSeed seed) : Paragraph R → _) =
    ofActive? config := by
  funext p
  rw [ofActive?, ofActive?, Score.ofParagraph_withSeed]
  rfl

variable [Scalar R]

theorem Registry.armLoops_withSeed (i : Nat) (r : Registry R)
    (loops : List (RegionKey × List (Token R))) :
    r.armLoops (config.withSeed seed) i loops = r.armLoops config i loops := by
  induction loops generalizing r with
  | nil => rfl
  | cons loop loops ih =>
      simp only [armLoops, ih]
      rfl

theorem Activity.follow_withSeed (i : Nat) (score? : Option (Score R)) (a : Activity R)
    (r : Registry R) : a.follow (config.withSeed seed) i score? r = a.follow config i score? r := by
  cases score? with
  | none => rfl
  | some score => simp only [follow, Registry.armLoops_withSeed]

theorem LoopTable.follow_withSeed (i : Nat) (scores : List (Option (Score R)))
    (table : LoopTable R) (r : Registry R) :
    follow (config.withSeed seed) i scores table r = follow config i scores table r := by
  induction scores generalizing i table r with
  | nil => rfl
  | cons score? scores ih => simp only [follow, Activity.follow_withSeed, ih]

theorem perform_withSeed (time : R) (g : Generator) (ts : List (Token R)) :
    perform (config.withSeed seed) time g ts = perform config time g ts := by
  induction ts generalizing time g with
  | nil => rfl
  | cons t ts ih =>
      simp only [perform, ih]
      rfl

end WithSeed

namespace Session

/-! ## Sessions that differ in the seed -/

/-- Two sessions that are one but for the seed, the generators and what is recorded. -/
structure Reseeded (s s' : Session R) : Prop where
  config_eq : ∃ seed, s'.config = s.config.withSeed seed
  document_eq : s'.document = s.document
  table_eq : s'.table = s.table
  registry_eq : s'.registry = s.registry
  recorder_now_eq : s'.recorder.now = s.recorder.now
  stops_eq : s'.recorder.stops = s.recorder.stops

namespace Reseeded

variable {s s' s'' : Session R}

theorem of_sameLoops (h : s.SameLoops s') (hnow : s'.recorder.now = s.recorder.now)
    (hstops : s'.recorder.stops = s.recorder.stops) : s.Reseeded s' :=
  ⟨⟨s.config.seed, h.config_eq⟩, h.document_eq, h.table_eq, h.registry_eq, hnow, hstops⟩

theorem refl (s : Session R) : s.Reseeded s :=
  of_sameLoops (SameLoops.refl s) rfl rfl

theorem symm (h : s.Reseeded s') : s'.Reseeded s where
  config_eq := by
    obtain ⟨seed, hconfig⟩ := h.config_eq
    exact ⟨s.config.seed, hconfig ▸ rfl⟩
  document_eq := h.document_eq.symm
  table_eq := h.table_eq.symm
  registry_eq := h.registry_eq.symm
  recorder_now_eq := h.recorder_now_eq.symm
  stops_eq := h.stops_eq.symm

theorem trans (h : s.Reseeded s') (h' : s'.Reseeded s'') : s.Reseeded s'' where
  config_eq := by
    obtain ⟨seed, hconfig⟩ := h.config_eq
    obtain ⟨seed', hconfig'⟩ := h'.config_eq
    exact ⟨seed', hconfig' ▸ hconfig ▸ rfl⟩
  document_eq := h'.document_eq.trans h.document_eq
  table_eq := h'.table_eq.trans h.table_eq
  registry_eq := h'.registry_eq.trans h.registry_eq
  recorder_now_eq := h'.recorder_now_eq.trans h.recorder_now_eq
  stops_eq := h'.stops_eq.trans h.stops_eq

theorem ofParagraph_eq (h : s.Reseeded s') (p : Paragraph R) :
    Score.ofParagraph s'.config p = Score.ofParagraph s.config p := by
  obtain ⟨seed, hconfig⟩ := h.config_eq
  rw [hconfig, Score.ofParagraph_withSeed]

theorem tokensOf_eq (h : s.Reseeded s') (r : Report R) : s'.tokensOf r = s.tokensOf r := by
  simp only [tokensOf, h.document_eq, h.ofParagraph_eq]

theorem scores_eq (h : s.Reseeded s') : s'.scores = s.scores := by
  obtain ⟨seed, hconfig⟩ := h.config_eq
  rw [scores, scores, h.document_eq, hconfig, Score.ofActive?_withSeed]

/-- What a session has played leaves it the same but for the generators. -/
theorem after (h : s.Reseeded s') {t t' : Session R} (ht : s.Reseeded t) (ht' : s'.Reseeded t') :
    t.Reseeded t' :=
  ht.symm.trans (h.trans ht')

end Reseeded

variable [Scalar R]

/-! ## Playing -/

theorem reseeded_timerFired (s : Session R) (handle : Nat) :
    s.Reseeded (s.timerFired handle).2 := by
  rcases s.timerFired_cases handle with hsilent | ⟨i, key, tokens, hplayed⟩
  · rw [hsilent]
    exact Reseeded.refl s
  · rw [hplayed]
    exact Reseeded.of_sameLoops (s.sameLoops_play i (.loop key) tokens) rfl rfl

theorem stops_tick (s : Session R) : s.tick.2.recorder.stops = s.recorder.stops := by
  show (s.playBodies _).2.recorder.stops = s.recorder.stops
  rw [recorder_playBodies]
  rfl

namespace Reseeded

variable {s s' : Session R}

theorem tick (h : s.Reseeded s') : s'.tick.1 = s.tick.1 ∧ s.tick.2.Reseeded s'.tick.2 := by
  obtain ⟨seed, hconfig⟩ := h.config_eq
  constructor
  · rw [tick_fst, tick_fst, h.table_eq, h.scores_eq, h.recorder_now_eq]
  · refine ⟨⟨seed, ?_⟩, ?_, ?_, ?_, ?_, ?_⟩
    · rw [config_tick, config_tick, hconfig]
    · rw [document_tick, document_tick, h.document_eq]
    · rw [table_tick, table_tick, h.scores_eq, h.table_eq, h.registry_eq, hconfig,
        LoopTable.follow_withSeed]
    · rw [registry_tick, registry_tick, h.scores_eq, h.table_eq, h.registry_eq, hconfig,
        LoopTable.follow_withSeed]
    · rw [recorder_now_tick, recorder_now_tick, h.recorder_now_eq]
    · rw [stops_tick, stops_tick, h.stops_eq]

theorem edit (h : s.Reseeded s') (document : Document R) :
    (s'.edit document).1 = (s.edit document).1 ∧
      (s.edit document).2.Reseeded (s'.edit document).2 := by
  have hedited : Reseeded { s with document } { s' with document } :=
    ⟨h.config_eq, rfl, h.table_eq, h.registry_eq, h.recorder_now_eq, h.stops_eq⟩
  exact hedited.tick

theorem timerFired (h : s.Reseeded s') (handle : Nat) :
    (s'.timerFired handle).1 = (s.timerFired handle).1 ∧
      (s.timerFired handle).2.Reseeded (s'.timerFired handle).2 := by
  refine ⟨?_, h.after (s.reseeded_timerFired handle) (s'.reseeded_timerFired handle)⟩
  simp only [timerFired_fst, reportOf?, loopReport?, h.registry_eq, h.document_eq,
    h.ofParagraph_eq, h.recorder_now_eq]

theorem advanceTo (h : s.Reseeded s') (time : R) :
    Reseeded { s with recorder := s.recorder.advanceTo time }
      { s' with recorder := s'.recorder.advanceTo time } where
  config_eq := h.config_eq
  document_eq := h.document_eq
  table_eq := h.table_eq
  registry_eq := h.registry_eq
  recorder_now_eq := by simp only [Recorder.advanceTo, h.recorder_now_eq]
  stops_eq := h.stops_eq

theorem deliver (h : s.Reseeded s') (firings : List (Firing R)) :
    (s'.deliver firings).1 = (s.deliver firings).1 ∧
      (s.deliver firings).2.Reseeded (s'.deliver firings).2 := by
  induction firings generalizing s s' with
  | nil => exact ⟨rfl, h⟩
  | cons f firings ih =>
      obtain ⟨hreport, hfired⟩ := (h.advanceTo f.due).timerFired f.handle
      obtain ⟨hrest, hafter⟩ := ih hfired
      refine ⟨?_, hafter⟩
      rw [Session.deliver, Session.deliver]
      simp only [hreport, hrest]

theorem advance? (h : s.Reseeded s') (seconds : R) :
    s.advance? seconds = none ∧ s'.advance? seconds = none ∨ ∃ reports t t',
      s.advance? seconds = some (reports, t) ∧ s'.advance? seconds = some (reports, t') ∧
        t.Reseeded t' := by
  have hnow : s'.now = s.now := by rw [Session.now, Session.now, h.registry_eq]
  have hdrain' : s'.registry.timers.drain? (s'.now + seconds) =
      s.registry.timers.drain? (s.now + seconds) := by rw [h.registry_eq, hnow]
  cases hdrain : s.registry.timers.drain? (s.now + seconds) with
  | none =>
      left
      rw [hdrain] at hdrain'
      simp only [Session.advance?, advanceTo?, hdrain, hdrain', Option.map_none, and_self]
  | some drained =>
      obtain ⟨firings, timers⟩ := drained
      obtain ⟨hreports, hdelivered⟩ := h.deliver firings
      have hafter := hdelivered.advanceTo (s.now + seconds)
      have hadvance' := advance?_of_drain? (hdrain'.trans hdrain)
      rw [hreports, hnow] at hadvance'
      refine Or.inr ⟨_, _, _, advance?_of_drain? hdrain, hadvance', ?_⟩
      exact ⟨hafter.config_eq, hafter.document_eq, hafter.table_eq, by rw [h.registry_eq],
        hafter.recorder_now_eq, hafter.stops_eq⟩

end Reseeded

/-! ## Typing -/

theorem strike_withSeed (s : Session R) (seed : Option UInt64) (a : Attributes R) (key : Char) :
    ({ s with config := s.config.withSeed seed }.strike a key).1 = (s.strike a key).1 := by
  have hsound : Sound.ofChar? (s.config.withSeed seed) false false a key s.liveGenerator =
      Sound.ofChar? s.config false false a key s.liveGenerator := rfl
  simp only [strike, hsound]
  split
  · rfl
  · rfl

theorem keystroke_withSeed (s : Session R) (seed : Option UInt64) (caret : Caret) (key : Char) :
    ({ s with config := s.config.withSeed seed }.keystroke caret key).1 =
      (s.keystroke caret key).1 := by
  have hsymbols : (s.config.withSeed seed).symbols = s.config.symbols := rfl
  simp only [keystroke, hsymbols]
  split
  · split
    · rfl
    · split
      · rfl
      · split
        · rfl
        · exact s.strike_withSeed seed _ key
  · rfl

namespace Reseeded

variable {s s' : Session R}

theorem keystroke_alike (h : s.Reseeded s') (caret : Caret) (key : Char) :
    Keystroke.Alike (key = s.config.symbols .random) (s.keystroke caret key).1
      (s'.keystroke caret key).1 := by
  obtain ⟨seed, hconfig⟩ := h.config_eq
  -- a session with the other generators and this seed stands between the two
  let t : Session R := { s' with config := s.config }
  have hanswer : (s'.keystroke caret key).1 = (t.keystroke caret key).1 := by
    have ht := t.keystroke_withSeed seed caret key
    have hself : { t with config := t.config.withSeed seed } = s' := by
      simp only [t, ← hconfig]
    rwa [hself] at ht
  have hdocument : s.document[caret.paragraph]? = t.document[caret.paragraph]? :=
    congrArg (·[caret.paragraph]?) h.document_eq.symm
  have hsame : s.config = t.config := rfl
  rw [hanswer]
  exact Session.keystroke_alike hsame h.recorder_now_eq.symm hdocument key

theorem keystroke (h : s.Reseeded s') (caret : Caret) (key : Char) :
    (s.keystroke caret key).2.Reseeded (s'.keystroke caret key).2 := by
  have halike := h.keystroke_alike caret key
  obtain ⟨g, hafter⟩ := s.exists_keystroke caret key
  obtain ⟨g', hafter'⟩ := s'.exists_keystroke caret key
  rw [hafter, hafter']
  have hsilences : (Outcome.keystroke (s'.keystroke caret key).1).silences =
      (Outcome.keystroke (s.keystroke caret key).1).silences := by
    generalize (s.keystroke caret key).1 = k at halike
    generalize (s'.keystroke caret key).1 = k' at halike
    cases halike with
    | ignored => rfl
    | silenced => rfl
    | played _ => rfl
  refine ⟨h.config_eq, h.document_eq, h.table_eq, h.registry_eq, h.recorder_now_eq, ?_⟩
  show s'.recorder.stops + _ = s.recorder.stops + _
  rw [h.stops_eq, hsilences]

omit [Scalar R] in
theorem stopAll (h : s.Reseeded s') : s.stopAll.Reseeded s'.stopAll where
  config_eq := h.config_eq
  document_eq := h.document_eq
  table_eq := rfl
  registry_eq := congrArg Registry.clear h.registry_eq
  recorder_now_eq := h.recorder_now_eq
  stops_eq := congrArg (· + 1) h.stops_eq

end Reseeded
end Session

/-! ## One command -/

/-- Answers to the same command that differ at most in a pitch that was drawn for the random
symbol. -/
inductive Outcome.Alike (symbols : Symbols) : Command R → Outcome R → Outcome R → Prop
  | same {c : Command R} {outcome : Outcome R} :
      outcome.isKeystroke = false → Alike symbols c outcome outcome
  | keystroke {caret : Caret} {key : Char} {k k' : Keystroke R} :
      Keystroke.Alike (key = symbols .random) k k' →
      Alike symbols (.keystroke caret key) (.keystroke k) (.keystroke k')

variable [Scalar R]

namespace Session

theorem Reseeded.effect? {s s' : Session R} (h : s.Reseeded s') (c : Command R) :
    s.effect? c = none ∧ s'.effect? c = none ∨ ∃ outcome outcome' t t',
      s.effect? c = some (outcome, t) ∧ s'.effect? c = some (outcome', t') ∧
        outcome.Alike s.config.symbols c outcome' ∧ t.Reseeded t' := by
  cases c with
  | edit document =>
      obtain ⟨hreports, hafter⟩ := h.edit document
      refine Or.inr ⟨.reports (s.edit document).1, .reports (s'.edit document).1, _, _, rfl, rfl,
        ?_, hafter⟩
      rw [hreports]
      exact .same rfl
  | tick =>
      obtain ⟨hreports, hafter⟩ := h.tick
      refine Or.inr ⟨.reports s.tick.1, .reports s'.tick.1, _, _, rfl, rfl, ?_, hafter⟩
      rw [hreports]
      exact .same rfl
  | keystroke caret key =>
      exact Or.inr ⟨_, _, _, _, s.effect?_keystroke caret key, s'.effect?_keystroke caret key,
        .keystroke (h.keystroke_alike caret key), h.keystroke caret key⟩
  | timerFired handle =>
      obtain ⟨hreport, hafter⟩ := h.timerFired handle
      refine Or.inr ⟨.fired (s.timerFired handle).1, .fired (s'.timerFired handle).1, _, _, rfl,
        rfl, ?_, hafter⟩
      rw [hreport]
      exact .same rfl
  | advance seconds =>
      rcases h.advance? seconds with ⟨hs, hs'⟩ | ⟨reports, t, t', hs, hs', hafter⟩
      · left
        simp only [Session.effect?, hs, hs', Option.map_none, and_self]
      · refine Or.inr ⟨.reports reports, .reports reports, t, t', ?_, ?_, .same rfl, hafter⟩
        · simp only [Session.effect?, hs, Option.map_some]
        · simp only [Session.effect?, hs', Option.map_some]
  | stopAll => exact Or.inr ⟨_, _, _, _, rfl, rfl, .same rfl, h.stopAll⟩

end Session

/-! ## What is heard -/

/-- The names of all pitches. -/
def Pitch.pool : List Text :=
  ["C3", "D3", "E3", "F3", "G3", "A3", "B3", "C4", "D4", "E4", "F4", "G4", "A4", "B4", "C5",
    "D5", "E5", "F5", "G5", "A5", "B5"].map String.toList

theorem Pitch.name_mem_pool (p : Pitch) : p.name ∈ pool := by
  revert p
  decide

/-- What an event comes from. -/
inductive Origin (R : Type) where
  | token (token : Token R)
  | key (key : Char)

namespace Origin

/-- The pitches are drawn: the token has the random flag, or the key is the random symbol. -/
def isRandom (symbols : Symbols) : Origin R → Bool
  | token t => t.random
  | key c => c = symbols .random

def pitchCount : Origin R → Nat
  | token t => t.letters.length
  | key _ => 1

/-- A key that is played. -/
def typed : Command R → Outcome R → List (Origin R)
  | .keystroke _ c, .keystroke (.played _) => [key c]
  | _, _ => []

end Origin

/-- What the events of a step come from: the tokens of its reports that have letters, and
the key that it plays. -/
def Step.origins (x : Step R) : List (Origin R) :=
  (x.outcome.toReports.flatMap fun r =>
    ((x.after.tokensOf r).filter fun t => !t.letters.isEmpty).map .token) ++
  Origin.typed x.command x.outcome

namespace Outcome.Alike

variable {symbols : Symbols} {c : Command R} {outcome outcome' : Outcome R}

omit [Scalar R] in
theorem toReports_eq (h : outcome.Alike symbols c outcome') :
    outcome'.toReports = outcome.toReports := by
  cases h with
  | same _ => rfl
  | keystroke _ => rfl

omit [Scalar R] in
theorem typed (h : outcome.Alike symbols c outcome') :
    NoteEvent.AlikeBy (Origin.isRandom symbols) Origin.pitchCount
      (Origin.typed c outcome) outcome.typed outcome'.typed := by
  cases h with
  | same hkey =>
      have horigins : Origin.typed c outcome = [] := by
        cases outcome with
        | keystroke k => exact absurd hkey (Bool.false_ne_true ∘ Eq.symm)
        | _ => cases c <;> rfl
      rw [horigins, (outcome.not_typed hkey).1]
      exact .nil
  | keystroke halike =>
      cases halike with
      | ignored => exact .nil
      | silenced => exact .nil
      | played halike => exact .cons halike .nil

end Outcome.Alike

/-- The same command in two runs that differ in the seed. -/
structure Step.Reseeded (x x' : Step R) : Prop where
  command_eq : x'.command = x.command
  outcome_alike : x.outcome.Alike x.before.config.symbols x.command x'.outcome
  after : x.after.Reseeded x'.after
  recorded_alike : NoteEvent.AlikeBy (Origin.isRandom x.before.config.symbols) Origin.pitchCount
    x.origins x.recorded x'.recorded

namespace Session

theorem Reseeded.performAll {s s' : Session R} (h : s.Reseeded s') (g g' : Generator)
    (symbols : Symbols) (rs : List (Report R)) :
    NoteEvent.AlikeBy (Origin.isRandom symbols) Origin.pitchCount
      (rs.flatMap fun r => ((s.tokensOf r).filter fun t => !t.letters.isEmpty).map .token)
      ((s.performAll g rs).1.flatMap Performed.events)
      ((s'.performAll g' rs).1.flatMap Performed.events) := by
  obtain ⟨seed, hconfig⟩ := h.config_eq
  induction rs generalizing g g' with
  | nil => exact .nil
  | cons r rs ih =>
      have hletters : ∀ t ∈ s.tokensOf r, ∀ l ∈ t.letters, isLetter l.char = true :=
        fun t ht l hl => isLetter_of_mem_tokensOf ht hl
      have hfirst := alikeBy_perform s.config r.start g g' hletters
      simp only [Session.performAll, List.flatMap_cons, h.tokensOf_eq, hconfig, perform_withSeed]
      refine NoteEvent.AlikeBy.append ?_ ?_
      · exact NoteEvent.AlikeBy.map hfirst
      · exact ih _ _

theorem Reseeded.of_effect? {x x' : Step R} (h : x.before.Reseeded x'.before)
    (hcommand : x'.command = x.command)
    (heffect : x.before.effect? x.command = some (x.outcome, x.after))
    (heffect' : x'.before.effect? x'.command = some (x'.outcome, x'.after)) : x.Reseeded x' := by
  rw [hcommand] at heffect'
  rcases h.effect? x.command with ⟨hnone, -⟩ | ⟨outcome, outcome', t, t', hs, hs', halike, hafter⟩
  · exact absurd (hnone.symm.trans heffect) (Option.some_ne_none _).symm
  · obtain ⟨rfl, rfl⟩ := Prod.mk.inj (Option.some_inj.mp (hs.symm.trans heffect))
    obtain ⟨rfl, rfl⟩ := Prod.mk.inj (Option.some_inj.mp (hs'.symm.trans heffect'))
    refine ⟨hcommand, halike, hafter, ?_⟩
    have hplayed := hafter.performAll x.before.generator x'.before.generator
      x.before.config.symbols x.outcome.toReports
    rw [Step.recorded, Step.recorded, Step.performed, Step.performed, halike.toReports_eq]
    exact hplayed.append halike.typed

/-- Whether there is a velocity does not hang on the seed. -/
theorem Reseeded.comesBack_iff {x x' : Step R} (hsteps : x.Reseeded x')
    (h : x.before.Reseeded x'.before)
    (heffect : x.before.effect? x.command = some (x.outcome, x.after))
    (heffect' : x'.before.effect? x'.command = some (x'.outcome, x'.after)) :
    x.before.comesBack x.after = true ↔ x'.before.comesBack x'.after = true := by
  obtain ⟨seed, hconfig⟩ := h.config_eq
  have hevents := events_effect? heffect
  have hevents' := events_effect? heffect'
  rw [List.append_assoc] at hevents hevents'
  rw [Session.comesBack_iff hevents, Session.comesBack_iff hevents', hconfig]
  exact or_congr_right hsteps.recorded_alike.eq_nil_iff

theorem Reseeded.step? {s s' : Session R} (h : s.Reseeded s') (c : Command R) :
    s.step? c = none ∧ s'.step? c = none ∨ ∃ outcome outcome' t t',
      s.step? c = some (outcome, t) ∧ s'.step? c = some (outcome', t') ∧
        Step.Reseeded ⟨s, c, outcome, t⟩ ⟨s', c, outcome', t'⟩ := by
  rcases h.effect? c with ⟨hs, hs'⟩ | ⟨outcome, outcome', t, t', hs, hs', -, -⟩
  · left
    simp only [Session.step?, hs, hs', Option.filter_none, and_self]
  · let x : Step R := ⟨s, c, outcome, t⟩
    let x' : Step R := ⟨s', c, outcome', t'⟩
    have hsteps : x.Reseeded x' := Reseeded.of_effect? h rfl hs hs'
    have hback := Reseeded.comesBack_iff hsteps h hs hs'
    by_cases hreturns : s.comesBack t = true
    · exact Or.inr ⟨_, _, _, _, step?_eq_some_iff.mpr ⟨hs, hreturns⟩,
        step?_eq_some_iff.mpr ⟨hs', hback.mp hreturns⟩, hsteps⟩
    · exact Or.inl ⟨(step?_eq_none_iff hs).mpr hreturns,
        (step?_eq_none_iff hs').mpr (mt hback.mpr hreturns)⟩

/-- By induction on the commands: each finds sessions that differ in the seed. -/
theorem Reseeded.steps {s s' : Session R} (h : s.Reseeded s') (commands : List (Command R)) :
    List.Forall₂ Step.Reseeded (s.steps commands) (s'.steps commands) := by
  induction commands generalizing s s' with
  | nil => exact List.Forall₂.nil
  | cons c commands ih =>
      rcases h.step? c with ⟨hs, hs'⟩ | ⟨outcome, outcome', t, t', hs, hs', hfirst⟩
      · rw [Session.steps, Session.steps, hs, hs']
        exact List.Forall₂.nil
      · rw [steps_cons_of_step? hs, steps_cons_of_step? hs']
        exact List.Forall₂.cons hfirst (ih hfirst.after)

theorem Reseeded.run? {s s' : Session R} (h : s.Reseeded s') (commands : List (Command R)) :
    s.run? commands = none ∧ s'.run? commands = none ∨ ∃ outcomes outcomes' t t',
      s.run? commands = some (outcomes, t) ∧ s'.run? commands = some (outcomes', t') ∧
        t.Reseeded t' := by
  induction commands generalizing s s' with
  | nil => exact Or.inr ⟨[], [], s, s', rfl, rfl, h⟩
  | cons c commands ih =>
      rcases h.step? c with ⟨hs, hs'⟩ | ⟨outcome, outcome', t, t', hs, hs', hfirst⟩
      · exact Or.inl ⟨by rw [Session.run?, hs]; rfl, by rw [Session.run?, hs']; rfl⟩
      · rw [run?_cons_of_step? hs, run?_cons_of_step? hs']
        rcases ih hfirst.after with
          ⟨hrest, hrest'⟩ | ⟨outcomes, outcomes', u, u', hrest, hrest', hlast⟩
        · exact Or.inl ⟨by rw [hrest]; rfl, by rw [hrest']; rfl⟩
        · exact Or.inr ⟨_, _, u, u', by rw [hrest]; rfl, by rw [hrest']; rfl, hlast⟩

theorem config_of_mem_steps {s : Session R} {commands : List (Command R)} {x : Step R}
    (hx : x ∈ s.steps commands) : x.before.config = s.config := by
  induction commands generalizing s with
  | nil => exact absurd hx List.not_mem_nil
  | cons c commands ih =>
      cases hstep : s.step? c with
      | none =>
          rw [Session.steps, hstep] at hx
          exact absurd hx List.not_mem_nil
      | some result =>
          rw [steps_cons_of_step? hstep] at hx
          rcases List.mem_cons.mp hx with rfl | hx
          · rfl
          · exact (ih hx).trans (config_step? hstep)

theorem alikeBy_steps {config : Config R} {xs xs' : List (Step R)}
    (h : List.Forall₂ Step.Reseeded xs xs') (hconfig : ∀ x ∈ xs, x.before.config = config) :
    NoteEvent.AlikeBy (Origin.isRandom config.symbols) Origin.pitchCount
      (xs.flatMap Step.origins) (xs.flatMap Step.recorded) (xs'.flatMap Step.recorded) := by
  induction h with
  | nil => exact .nil
  | @cons x x' xs xs' hx _ ih =>
      obtain ⟨hfirst, hrest⟩ := List.forall_mem_cons.mp hconfig
      have hrecorded := hx.recorded_alike
      rw [hfirst] at hrecorded
      exact hrecorded.append (ih hrest)

/-- **The seed decides pitches and nothing else.** Two runs of the same commands, from new
sessions with any seeds and any generators, come to an end both or neither.  Step by step
they report the same, answer keystrokes alike and have the same tables, owners, timers,
clocks and stops.  Each event of the one has its partner in the other.  Both come from the
same token or key and differ at most in pitches, in these only if the token is random or
the key is the random symbol, and all pitches have a name in the pool. -/
theorem seed_decides_pitches_alone (config : Config R) (seed seed' : Option UInt64)
    (g live g' live' : Generator) (commands : List (Command R)) :
    let s : Session R :=
      { new (config.withSeed seed) g live with generator := g, liveGenerator := live }
    let s' : Session R :=
      { new (config.withSeed seed') g' live' with generator := g', liveGenerator := live' }
    List.Forall₂ Step.Reseeded (s.steps commands) (s'.steps commands) ∧
      (s.run? commands = none ∧ s'.run? commands = none ∨ ∃ outcomes outcomes' t t',
        s.run? commands = some (outcomes, t) ∧ s'.run? commands = some (outcomes', t') ∧
        (s.steps commands).map Step.outcome = outcomes ∧
        (s'.steps commands).map Step.outcome = outcomes' ∧ t.Reseeded t' ∧
        NoteEvent.AlikeBy (Origin.isRandom config.symbols) Origin.pitchCount
          ((s.steps commands).flatMap Step.origins)
          t.recorder.events.toList t'.recorder.events.toList ∧
        ∀ e ∈ t.recorder.events.toList ++ t'.recorder.events.toList, ∀ p ∈ e.pitches,
          p.name ∈ Pitch.pool) := by
  intro s s'
  have h : s.Reseeded s' := ⟨⟨seed', rfl⟩, rfl, rfl, rfl, rfl, rfl⟩
  have hsteps := h.steps commands
  refine ⟨hsteps, ?_⟩
  rcases h.run? commands with hstuck | ⟨outcomes, outcomes', t, t', hrun, hrun', hlast⟩
  · exact Or.inl hstuck
  · obtain ⟨-, houtcomes, hevents⟩ := steps_of_run? hrun
    obtain ⟨-, houtcomes', hevents'⟩ := steps_of_run? hrun'
    have halike := alikeBy_steps hsteps fun x hx => config_of_mem_steps hx
    refine Or.inr ⟨outcomes, outcomes', t, t', hrun, hrun', houtcomes, houtcomes', hlast, ?_,
      fun e _ p _ => p.name_mem_pool⟩
    rw [hevents, hevents']
    exact halike

/-- The random symbol may be a letter where nobody has checked the configuration, and
where it is typed it plays what is drawn. -/
theorem random_letter_plays_drawn_pitch :
    let config : Config Rat := { Config.standard with
      symbols := fun role => if role = .random then 'a' else Symbols.standard role }
    let fresh (seed : UInt64) := new (config.withSeed (some seed)) (.ofSeed 0) (.ofSeed 1)
    let heard (seed : UInt64) :=
      ((fresh seed).run? [.edit (Document.ofText "(".toList), .keystroke ⟨0, 1⟩ 'a']).map fun r =>
        r.2.recorder.events.toList.map fun e => e.pitches.map Pitch.name
    isLetter 'a' = true ∧ heard 0 = some [["B5".toList]] ∧ heard 6 = some [["C3".toList]] := by
  decide +kernel

end Session
end ProseScore
