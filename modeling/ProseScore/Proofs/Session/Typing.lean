import ProseScore.Proofs.Session.Openings

/-!
# Typing beside what is played

Keystrokes share the document, the configuration and the recorder with the bodies
and the loops.  They leave no trace in them all the same: a run without its
keystrokes plays and reports what the run with them does, draws the same pitches,
and has the same loops and timers after each command.
-/

namespace ProseScore

variable {R : Type}

/-! ## Behind what has been recorded -/

namespace Recorder

/-- The recorder, when so much has been recorded and silenced before. -/
def behind (r : Recorder R) (events : List (NoteEvent R)) (stops : Nat) : Recorder R :=
  { r with
    events := events.toArray ++ r.events
    stops := stops + r.stops }

theorem record_behind (r : Recorder R) (es : List (NoteEvent R)) (n : Nat)
    (fs : List (NoteEvent R)) : (r.behind es n).record fs = (r.record fs).behind es n := by
  have hevents : es.toArray ++ r.events ++ fs = es.toArray ++ (r.events ++ fs) := by
    apply Array.toList_inj.mp
    simp
  rw [record, behind, hevents, record, behind]

@[simp] theorem toList_events_behind (r : Recorder R) (es : List (NoteEvent R)) (n : Nat) :
    (r.behind es n).events.toList = es ++ r.events.toList := by
  simp [behind]

end Recorder

def Command.isKeystroke : Command R → Bool
  | .keystroke _ _ => true
  | _ => false

def Outcome.isKeystroke : Outcome R → Bool
  | .keystroke _ => true
  | _ => false

/-- What a keystroke plays. -/
def Outcome.typed : Outcome R → List (NoteEvent R)
  | .keystroke (.played event) => [event]
  | _ => []

/-- How often a keystroke silences everything. -/
def Outcome.silences : Outcome R → Nat
  | .keystroke .silenced => 1
  | _ => 0

theorem Outcome.not_typed {outcome : Outcome R} (h : outcome.isKeystroke = false) :
    outcome.typed = [] ∧ outcome.silences = 0 := by
  cases outcome with
  | keystroke k => exact absurd h (Bool.false_ne_true ∘ Eq.symm)
  | _ => exact ⟨rfl, rfl⟩

namespace Session

/-- The session, when so much has been recorded before, with another generator for
its keystrokes. -/
def behind (s : Session R) (events : List (NoteEvent R)) (stops : Nat)
    (liveGenerator : Generator) : Session R :=
  { s with
    recorder := s.recorder.behind events stops
    liveGenerator }

/-- Two sessions that differ at most in what has been recorded and silenced and in
the generator of keystrokes. -/
structure Alike (s t : Session R) : Prop extends s.SameLoops t where
  generator_eq : t.generator = s.generator
  recorder_now_eq : t.recorder.now = s.recorder.now

namespace Alike

theorem refl (s : Session R) : s.Alike s :=
  ⟨SameLoops.refl s, rfl, rfl⟩

theorem behind (s : Session R) (es es' : List (NoteEvent R)) (n n' : Nat) (g g' : Generator) :
    (s.behind es n g).Alike (s.behind es' n' g') :=
  ⟨⟨rfl, rfl, rfl, rfl⟩, rfl, rfl⟩

theorem exchange {s t : Session R} (h : s.Alike t) (recorder : Recorder R)
    (hnow : recorder.now = s.recorder.now) (liveGenerator : Generator) :
    { s with recorder, liveGenerator }.Alike t :=
  ⟨⟨h.config_eq, h.document_eq, h.table_eq, h.registry_eq⟩, h.generator_eq,
    h.recorder_now_eq.trans hnow.symm⟩

/-- Such sessions are one session behind what each of them has recorded. -/
theorem exists_behind {s t : Session R} (h : s.Alike t) : ∃ u : Session R,
    s = u.behind s.recorder.events.toList s.recorder.stops s.liveGenerator ∧
      t = u.behind t.recorder.events.toList t.recorder.stops t.liveGenerator := by
  refine ⟨{ s with recorder := ⟨s.recorder.now, #[], 0⟩ }, ?_, ?_⟩
  · simp [Session.behind, Recorder.behind]
  · obtain ⟨⟨hconfig, hdocument, htable, hregistry⟩, hgenerator, hnow⟩ := h
    simp [Session.behind, Recorder.behind, ← hconfig, ← hdocument, ← htable, ← hregistry,
      ← hgenerator, ← hnow]

end Alike

variable [Scalar R]

/-! ## Commands behind what has been recorded -/

section

variable (s : Session R) (es : List (NoteEvent R)) (n : Nat) (g : Generator)

theorem play_behind (i : Nat) (source : Source) (tokens : List (Token R)) :
    (s.behind es n g).play i source tokens =
      ((s.play i source tokens).1, (s.play i source tokens).2.behind es n g) := by
  simp only [play, schedule, behind, Recorder.record_behind]
  rfl

theorem playBodies_behind (bodies : List (Nat × List (Token R))) :
    (s.behind es n g).playBodies bodies =
      ((s.playBodies bodies).1, (s.playBodies bodies).2.behind es n g) := by
  induction bodies generalizing s with
  | nil => rfl
  | cons body bodies ih => simp only [playBodies, play_behind, ih]

theorem tick_behind : (s.behind es n g).tick = (s.tick.1, s.tick.2.behind es n g) := by
  have hbodies : (s.behind es n g).table.openings 0 (s.behind es n g).scores =
      s.table.openings 0 s.scores := rfl
  simp only [tick, hbodies, playBodies_behind]
  rfl

theorem timerFired_behind (handle : Nat) :
    (s.behind es n g).timerFired handle =
      ((s.timerFired handle).1, (s.timerFired handle).2.behind es n g) := by
  have howner : (s.behind es n g).registry.owner? handle = s.registry.owner? handle := rfl
  simp only [timerFired, howner]
  cases s.registry.owner? handle with
  | none => rfl
  | some owner =>
      have hdocument : (s.behind es n g).document[owner.paragraph]? =
          s.document[owner.paragraph]? := rfl
      have hconfig : (s.behind es n g).config = s.config := rfl
      simp only [hdocument]
      cases s.document[owner.paragraph]? with
      | none => rfl
      | some p =>
          simp only [hconfig]
          cases (Score.ofParagraph s.config p).loop owner.key with
          | nil => rfl
          | cons t ts => simp only [play_behind]

theorem deliver_behind (firings : List (Firing R)) :
    (s.behind es n g).deliver firings =
      ((s.deliver firings).1, (s.deliver firings).2.behind es n g) := by
  induction firings generalizing s with
  | nil => rfl
  | cons f firings ih =>
      let moved : Session R := { s with recorder := s.recorder.advanceTo f.due }
      have hmoved : { s.behind es n g with
          recorder := (s.behind es n g).recorder.advanceTo f.due } = moved.behind es n g := rfl
      simp only [deliver, hmoved, timerFired_behind, ih]
      rfl

theorem advance?_behind (seconds : R) :
    (s.behind es n g).advance? seconds =
      (s.advance? seconds).map fun (reports, s') => (reports, s'.behind es n g) := by
  have hdrain : (s.behind es n g).registry.timers.drain? ((s.behind es n g).now + seconds) =
      s.registry.timers.drain? (s.now + seconds) := rfl
  simp only [advance?, advanceTo?, hdrain, deliver_behind]
  cases s.registry.timers.drain? (s.now + seconds) with
  | none => rfl
  | some drained => rfl

theorem effect?_behind {c : Command R} (hc : c.isKeystroke = false) :
    (s.behind es n g).effect? c =
      (s.effect? c).map fun (outcome, s') => (outcome, s'.behind es n g) := by
  cases c with
  | edit document =>
      have hedit : (s.behind es n g).edit document =
          tick (behind { s with document } es n g) := rfl
      simp only [effect?, hedit, tick_behind]
      rfl
  | tick =>
      simp only [effect?, tick_behind]
      rfl
  | keystroke caret key => exact absurd hc (by simp [Command.isKeystroke])
  | timerFired handle =>
      simp only [effect?, timerFired_behind]
      rfl
  | advance seconds =>
      simp only [effect?, advance?_behind, Option.map_map]
      rfl
  | stopAll => rfl

theorem comesBack_behind (later : Session R) :
    (s.behind es n g).comesBack (later.behind es n g) = s.comesBack later := by
  have hsize : ((later.behind es n g).recorder.events.size =
      (s.behind es n g).recorder.events.size) ↔
        later.recorder.events.size = s.recorder.events.size := by
    simp [behind, Recorder.behind]
  rw [comesBack, comesBack, decide_eq_decide.mpr hsize]
  rfl

/-- No command but a keystroke looks at what has been recorded. -/
theorem step?_behind {c : Command R} (hc : c.isKeystroke = false) :
    (s.behind es n g).step? c =
      (s.step? c).map fun (outcome, s') => (outcome, s'.behind es n g) := by
  rw [step?, effect?_behind s es n g hc, step?, Option.filter_map]
  simp only [Function.comp_def, comesBack_behind]

end

/-! ## Two sessions, command by command -/

/-- How sessions `s` and `t` come to `s'` and `t'` by one run with keystrokes and by
the same run without them: alike, and with the same things recorded but for what is
typed.  The events that are typed have the mark `true`. -/
structure TypedOver (s t s' t' : Session R) (typed : List (NoteEvent R)) (silences : Nat) :
    Prop where
  alike : s'.Alike t'
  events : ∃ added : List (NoteEvent R × Bool),
    s'.recorder.events.toList = s.recorder.events.toList ++ added.map Prod.fst ∧
    t'.recorder.events.toList =
      t.recorder.events.toList ++ (added.filter fun e => !e.2).map Prod.fst ∧
    (added.filter Prod.snd).map Prod.fst = typed
  stops : ∃ n, t'.recorder.stops = t.recorder.stops + n ∧
    s'.recorder.stops = s.recorder.stops + n + silences

namespace TypedOver

omit [Scalar R] in
theorem refl {s t : Session R} (h : s.Alike t) : s.TypedOver t s t [] 0 where
  alike := h
  events := ⟨[], by simp⟩
  stops := ⟨0, rfl, rfl⟩

omit [Scalar R] in
theorem trans {s t s' t' s'' t'' : Session R} {typed typed' : List (NoteEvent R)}
    {silences silences' : Nat} (h : s.TypedOver t s' t' typed silences)
    (h' : s'.TypedOver t' s'' t'' typed' silences') :
    s.TypedOver t s'' t'' (typed ++ typed') (silences + silences') where
  alike := h'.alike
  events := by
    obtain ⟨added, hs, ht, htyped⟩ := h.events
    obtain ⟨added', hs', ht', htyped'⟩ := h'.events
    refine ⟨added ++ added', ?_, ?_, ?_⟩
    · rw [hs', hs, List.map_append, List.append_assoc]
    · rw [ht', ht, List.filter_append, List.map_append, List.append_assoc]
    · rw [List.filter_append, List.map_append, htyped, htyped']
  stops := by
    obtain ⟨n, ht, hs⟩ := h.stops
    obtain ⟨n', ht', hs'⟩ := h'.stops
    exact ⟨n + n', by omega, by omega⟩

end TypedOver

theorem effect?_keystroke (s : Session R) (caret : Caret) (key : Char) :
    s.effect? (.keystroke caret key) =
      some (.keystroke (s.keystroke caret key).1, (s.keystroke caret key).2) := rfl

/-- A keystroke records and silences what it answers and leaves the rest alone. -/
theorem exists_keystroke (s : Session R) (caret : Caret) (key : Char) :
    let outcome := Outcome.keystroke (s.keystroke caret key).1
    ∃ liveGenerator, (s.keystroke caret key).2 = { s with
      liveGenerator
      recorder := ⟨s.recorder.now, s.recorder.events ++ outcome.typed,
        s.recorder.stops + outcome.silences⟩ } := by
  have hnothing : (⟨s.recorder.now, s.recorder.events ++ ([] : List (NoteEvent R)),
      s.recorder.stops⟩ : Recorder R) = s.recorder := by simp
  have hignored : ∀ liveGenerator, { s with liveGenerator } = { s with
      liveGenerator
      recorder := ⟨s.recorder.now, s.recorder.events ++ ([] : List (NoteEvent R)),
        s.recorder.stops⟩ } := fun _ => by rw [hnothing]
  intro outcome
  simp only [outcome, keystroke, strike]
  split
  · split
    · exact ⟨_, hignored s.liveGenerator⟩
    · split
      · exact ⟨_, hignored s.liveGenerator⟩
      · split
        · refine ⟨s.liveGenerator, ?_⟩
          exact congrArg (fun s' : Session R => { s' with recorder := s'.recorder.silence })
            (hignored s.liveGenerator)
        · split
          · exact ⟨_, hignored _⟩
          · exact ⟨_, rfl⟩
  · exact ⟨_, hignored s.liveGenerator⟩

theorem Alike.keystroke {s t : Session R} (h : s.Alike t) (caret : Caret) (key : Char) :
    let outcome := Outcome.keystroke (s.keystroke caret key).1
    s.TypedOver t (s.keystroke caret key).2 t outcome.typed outcome.silences := by
  intro outcome
  obtain ⟨liveGenerator, hafter⟩ := s.exists_keystroke caret key
  have halike := h.exchange ⟨s.recorder.now, s.recorder.events ++ outcome.typed,
    s.recorder.stops + outcome.silences⟩ rfl liveGenerator
  rw [hafter]
  refine ⟨halike, ⟨outcome.typed.map fun e => (e, true), ?_, ?_, ?_⟩, 0, rfl, rfl⟩
  · simp [outcome, Function.comp_def]
  · simp [List.filter_map, Function.comp_def]
  · simp [List.filter_map, Function.comp_def]

theorem isKeystroke_of_effect? {s s' : Session R} {c : Command R} {outcome : Outcome R}
    (h : s.effect? c = some (outcome, s')) : outcome.isKeystroke = c.isKeystroke := by
  cases c with
  | advance seconds =>
      obtain ⟨reports, -, rfl⟩ := effect?_advance_eq_some h
      rfl
  | _ =>
      rw [← (Prod.mk.inj (Option.some_inj.mp h)).1]
      rfl

/-- What is not a keystroke has the same effect on sessions that are alike. -/
theorem Alike.step? {s t : Session R} (h : s.Alike t) {c : Command R}
    (hc : c.isKeystroke = false) : s.step? c = none ∧ t.step? c = none ∨
      ∃ outcome s' t', s.step? c = some (outcome, s') ∧ t.step? c = some (outcome, t') ∧
        s.TypedOver t s' t' outcome.typed outcome.silences := by
  obtain ⟨u, hs, ht⟩ := h.exists_behind
  have hsstep := u.step?_behind s.recorder.events.toList s.recorder.stops s.liveGenerator hc
  have htstep := u.step?_behind t.recorder.events.toList t.recorder.stops t.liveGenerator hc
  rw [← hs] at hsstep
  rw [← ht] at htstep
  cases hu : u.step? c with
  | none =>
      rw [hu] at hsstep htstep
      exact Or.inl ⟨hsstep, htstep⟩
  | some result =>
      obtain ⟨outcome, u'⟩ := result
      rw [hu] at hsstep htstep
      obtain ⟨htyped, hsilences⟩ : outcome.typed = [] ∧ outcome.silences = 0 :=
        outcome.not_typed ((isKeystroke_of_effect? (effect?_of_step? hu)).trans hc)
      refine Or.inr ⟨outcome, _, _, hsstep, htstep, Alike.behind u' _ _ _ _ _ _, ?_, ?_⟩
      · refine ⟨u'.recorder.events.toList.map fun e => (e, false), ?_, ?_, ?_⟩
        · simp [Session.behind, Function.comp_def]
        · simp [Session.behind, List.filter_map, Function.comp_def]
        · simp [htyped, List.filter_map, Function.comp_def]
      · exact ⟨u'.recorder.stops, rfl, by rw [hsilences]; rfl⟩

/-- **Typing does not disturb what is played.** When a run comes to an end, so does the
same run without its keystrokes from a session that is alike.  The other commands answer
the same, and afterwards the sessions are alike again: in the table, the owners, the
timers, the clocks and the generator of what is played.  The events differ by what was
typed and the stops by what was silenced.  As the run is any one, this holds behind every
command on the way.  Where the bounds of the velocities are in order, no keystroke keeps
a run from its end: then the runs come to an end both or neither. -/
theorem typing_leaves_playback_alone {s t : Session R} (h : s.Alike t)
    (commands : List (Command R)) :
    s.run? commands = none ∧ (s.config.velocity.Bounded →
        t.run? (commands.filter fun c => !c.isKeystroke) = none) ∨
      ∃ outcomes s' t', s.run? commands = some (outcomes, s') ∧
        t.run? (commands.filter fun c => !c.isKeystroke) =
          some (outcomes.filter fun o => !o.isKeystroke, t') ∧
        s.TypedOver t s' t' (outcomes.flatMap Outcome.typed)
          (outcomes.map Outcome.silences).sum := by
  induction commands generalizing s t with
  | nil => exact Or.inr ⟨[], s, t, rfl, rfl, TypedOver.refl h⟩
  | cons c commands ih =>
      cases hc : c.isKeystroke with
      | true =>
          cases c with
          | keystroke caret key =>
              have heffect := s.effect?_keystroke caret key
              have hfirst := h.keystroke caret key
              have hconfig : (s.keystroke caret key).2.config = s.config :=
                (s.sameLoops_keystroke caret key).config_eq
              cases hback : s.comesBack (s.keystroke caret key).2 with
              | false =>
                  have hnone : s.step? (.keystroke caret key) = none :=
                    (step?_eq_none_iff heffect).mpr (by simp [hback])
                  refine Or.inl ⟨by simp [run?, hnone], fun hbounded => ?_⟩
                  simp [comesBack, hbounded] at hback
              | true =>
                  rw [run?_cons_of_step? (step?_eq_some_iff.mpr ⟨heffect, hback⟩)]
                  rcases ih hfirst.alike with ⟨hs, ht⟩ | ⟨outcomes, s', t', hs, ht, hrest⟩
                  · exact Or.inl ⟨by rw [hs]; rfl, hconfig ▸ ht⟩
                  · refine Or.inr ⟨.keystroke _ :: outcomes, s', t', ?_, ht, hfirst.trans hrest⟩
                    rw [hs]
                    rfl
          | _ => exact absurd hc Bool.false_ne_true
      | false =>
          rw [List.filter_cons_of_pos (by simp [hc])]
          rcases h.step? hc with ⟨hs, ht⟩ | ⟨outcome, s₁, t₁, hs₁, ht₁, hfirst⟩
          · exact Or.inl ⟨by simp [run?, hs], fun _ => by simp [run?, ht]⟩
          · have hconfig : s₁.config = s.config := config_step? hs₁
            have houtcome := (isKeystroke_of_effect? (effect?_of_step? hs₁)).trans hc
            rw [run?_cons_of_step? hs₁, run?_cons_of_step? ht₁]
            rcases ih hfirst.alike with ⟨hs, ht⟩ | ⟨outcomes, s', t', hs, ht, hrest⟩
            · exact Or.inl ⟨by rw [hs]; rfl, fun hbounded => by rw [ht (hconfig ▸ hbounded)]; rfl⟩
            · refine Or.inr ⟨outcome :: outcomes, s', t', by rw [hs]; rfl, ?_, hfirst.trans hrest⟩
              rw [List.filter_cons_of_pos (by simp [houtcome]), ht]
              rfl

/-- A letter is typed and everything is silenced while a loop plays. -/
theorem typing_leaves_loop_alone :
    let s := new (Config.standard : Config Rat) (.ofSeed 0) (.ofSeed 1)
    let typed : List (Command Rat) := [.keystroke ⟨1, 1⟩ 'c', .keystroke ⟨1, 1⟩ '/']
    let commands := .edit (Document.ofText "a [b].\n(".toList) :: typed ++ [.advance 1]
    s.Alike s ∧ ∃ outcomes s' t', s.run? commands = some (outcomes, s') ∧
      t'.recorder.events.size = 3 ∧ s'.recorder.events.size = 4 ∧
      t'.recorder.stops = 0 ∧ s'.recorder.stops = 1 ∧
      s.TypedOver s s' t' (outcomes.flatMap Outcome.typed) 1 := by
  intro s typed commands
  have halike : s.Alike s := Alike.refl s
  have hcounts : (s.run? commands).map (fun r =>
      (r.2.recorder.events.size, r.2.recorder.stops, (r.1.map Outcome.silences).sum)) =
      some (4, 1, 1) := by decide +kernel
  have hcounts' : (s.run? (commands.filter fun c => !c.isKeystroke)).map (fun r =>
      (r.2.recorder.events.size, r.2.recorder.stops)) = some (3, 0) := by decide +kernel
  rcases typing_leaves_playback_alone halike commands with ⟨hs, -⟩ | ⟨outcomes, s', t', hs, ht, h⟩
  · rw [hs] at hcounts
    exact absurd hcounts (by simp)
  · rw [hs] at hcounts
    rw [ht] at hcounts'
    obtain ⟨hevents, hstops, hsilences⟩ : _ ∧ _ ∧ _ := by simpa using hcounts
    obtain ⟨hevents', hstops'⟩ : _ ∧ _ := by simpa using hcounts'
    rw [hsilences] at h
    exact ⟨halike, outcomes, s', t', hs, hevents', hevents, hstops', hstops, h⟩

end Session
end ProseScore
