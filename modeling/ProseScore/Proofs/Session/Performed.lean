import ProseScore.Proofs.Session.Typing
import ProseScore.Proofs.Session.Reports
import ProseScore.Proofs.Sound.Drawn

/-!
# What is recorded of each report

Nothing is recorded but what is reported and what is typed.  The events of a command
are those of its reports, one report after the other, each performed with the
generator that the one before it has left.  Each event has the velocity of some
letter, so that a call comes back if there are velocities for its events.
-/

namespace ProseScore

variable {R : Type} [Scalar R]

/-- A report with the tokens that are played and the events that are recorded of
them. -/
structure Performed (R : Type) where
  report : Report R
  tokens : List (Token R)
  events : List (NoteEvent R)

namespace Session

omit [Scalar R] in
/-- The tokens of which a report tells. -/
def tokensOf (s : Session R) (r : Report R) : List (Token R) :=
  match s.document[r.paragraph]? with
  | none => []
  | some p =>
    match r.source with
    | .oneShot => (Score.ofParagraph s.config p).body
    | .loop key => (Score.ofParagraph s.config p).loop key

/-- The performances of some reports, and the generator behind them. -/
def performAll (s : Session R) : Generator → List (Report R) → List (Performed R) × Generator
  | g, [] => ([], g)
  | g, r :: rs =>
    let p := perform s.config r.start g (s.tokensOf r)
    let (rest, g) := s.performAll p.generator rs
    (⟨r, s.tokensOf r, p.events⟩ :: rest, g)

/-- The second session comes of the first one when reports are performed, of a
document and a configuration in `score`. -/
structure Performs (score s s' : Session R) (reports : List (Report R)) : Prop where
  events_eq : s'.recorder.events.toList = s.recorder.events.toList ++
    (score.performAll s.generator reports).1.flatMap Performed.events
  generator_eq : s'.generator = (score.performAll s.generator reports).2

namespace Performs

variable {score s s' s'' : Session R} {reports reports' : List (Report R)}

theorem of_eq (hevents : s'.recorder.events = s.recorder.events)
    (hgenerator : s'.generator = s.generator) : score.Performs s s' [] where
  events_eq := by rw [hevents]; exact (List.append_nil _).symm
  generator_eq := hgenerator

theorem performAll_append (s : Session R) (g : Generator) (rs rs' : List (Report R)) :
    s.performAll g (rs ++ rs') =
      ((s.performAll g rs).1 ++ (s.performAll (s.performAll g rs).2 rs').1,
        (s.performAll (s.performAll g rs).2 rs').2) := by
  induction rs generalizing g with
  | nil => rfl
  | cons r rs ih => simp only [List.cons_append, performAll, ih]

theorem trans (h : score.Performs s s' reports) (h' : score.Performs s' s'' reports') :
    score.Performs s s'' (reports ++ reports') where
  events_eq := by
    rw [h'.events_eq, h.events_eq, h.generator_eq, performAll_append, List.flatMap_append,
      List.append_assoc]
  generator_eq := by rw [h'.generator_eq, h.generator_eq, performAll_append]

end Performs

theorem performs_play (s : Session R) (i : Nat) (source : Source) (tokens : List (Token R))
    (htokens : s.tokensOf (s.play i source tokens).1 = tokens) :
    s.Performs s (s.play i source tokens).2 [(s.play i source tokens).1] := by
  have hperformed : s.performAll s.generator [(s.play i source tokens).1] =
      ([⟨(s.play i source tokens).1, tokens,
          (perform s.config s.recorder.now s.generator tokens).events⟩],
        (perform s.config s.recorder.now s.generator tokens).generator) := by
    simp only [performAll, htokens]
    rfl
  constructor
  · rw [hperformed]
    simp [play, schedule]
  · rw [hperformed]
    rfl

theorem performAll_congr {s s' : Session R} (hconfig : s'.config = s.config)
    (hdocument : s'.document = s.document) (g : Generator) (rs : List (Report R)) :
    s'.performAll g rs = s.performAll g rs := by
  induction rs generalizing g with
  | nil => rfl
  | cons r rs ih => simp only [performAll, tokensOf, hconfig, hdocument, ih]

theorem Performs.congr {score score' s s' : Session R} {reports : List (Report R)}
    (h : score.Performs s s' reports) (hconfig : score'.config = score.config)
    (hdocument : score'.document = score.document) : score'.Performs s s' reports where
  events_eq := by rw [performAll_congr hconfig hdocument, h.events_eq]
  generator_eq := by rw [performAll_congr hconfig hdocument, h.generator_eq]

theorem Performs.of_sameLoops {score later s s' : Session R} {reports : List (Report R)}
    (h : later.Performs s s' reports) (hsame : score.SameLoops later) :
    score.Performs s s' reports :=
  h.congr hsame.config_eq.symm hsame.document_eq.symm

theorem performs_playBodies (s : Session R) (bodies : List (Nat × List (Token R)))
    (h : ∀ i tokens, (i, tokens) ∈ bodies → ∃ p, s.document[i]? = some p ∧
      (Score.ofParagraph s.config p).body = tokens) :
    s.Performs s (s.playBodies bodies).2 (s.playBodies bodies).1 := by
  induction bodies generalizing s with
  | nil => exact .of_eq rfl rfl
  | cons body bodies ih =>
      obtain ⟨i, tokens⟩ := body
      obtain ⟨p, hp, hbody⟩ := h i tokens List.mem_cons_self
      have hsame := s.sameLoops_play i .oneShot tokens
      have hfirst := s.performs_play i .oneShot tokens (by
        show s.tokensOf ⟨i, .oneShot, _, _, _⟩ = tokens
        rw [tokensOf, hp]
        exact hbody)
      have hrest := ih (s.play i .oneShot tokens).2 fun j tokens' hmem => by
        rw [hsame.document_eq, hsame.config_eq]
        exact h j tokens' (List.mem_cons_of_mem _ hmem)
      exact hfirst.trans (hrest.of_sameLoops hsame)

theorem performs_tick (s : Session R) : s.Performs s s.tick.2 s.tick.1 := by
  have hbodies := s.performs_playBodies (s.table.openings 0 s.scores) fun i tokens hmem => by
    obtain ⟨p, hp, -, -, hbody, -⟩ := mem_openings_iff.mp hmem
    exact ⟨p, hp, hbody⟩
  exact ⟨hbodies.events_eq, hbodies.generator_eq⟩

theorem performs_timerFired (s : Session R) (handle : Nat) :
    s.Performs s (s.timerFired handle).2 (s.timerFired handle).1.toList := by
  cases ho : s.registry.owner? handle with
  | none =>
      rw [timerFired_of_none ho]
      exact .of_eq rfl rfl
  | some owner =>
      cases hp : s.document[owner.paragraph]? with
      | none =>
          have hsilent : s.timerFired handle = (none, s) := by simp [timerFired, ho, hp]
          rw [hsilent]
          exact .of_eq rfl rfl
      | some p =>
          by_cases hne : (Score.ofParagraph s.config p).loop owner.key = []
          · have hsilent : s.timerFired handle = (none, s) := by simp [timerFired, ho, hp, hne]
            rw [hsilent]
            exact .of_eq rfl rfl
          · rw [timerFired_of_owner ho hp hne]
            apply s.performs_play
            show s.tokensOf ⟨owner.paragraph, .loop owner.key, _, _, _⟩ = _
            rw [tokensOf, hp]

theorem performs_deliver (s : Session R) (firings : List (Firing R)) :
    s.Performs s (s.deliver firings).2 ((s.deliver firings).1.filterMap Prod.snd) := by
  induction firings generalizing s with
  | nil => exact .of_eq rfl rfl
  | cons f firings ih =>
      let moved : Session R := { s with recorder := s.recorder.advanceTo f.due }
      have hmoved : s.SameLoops moved := ⟨rfl, rfl, rfl, rfl⟩
      have hfired := (moved.performs_timerFired f.handle).of_sameLoops hmoved
      have hrest := (ih (moved.timerFired f.handle).2).of_sameLoops
        (hmoved.trans (moved.sameLoops_timerFired f.handle))
      have hreports : (s.deliver (f :: firings)).1.filterMap Prod.snd =
          [] ++ ((moved.timerFired f.handle).1.toList ++
            ((moved.timerFired f.handle).2.deliver firings).1.filterMap Prod.snd) := by
        show ((f, (moved.timerFired f.handle).1) :: _).filterMap Prod.snd = _
        cases (moved.timerFired f.handle).1 <;> rfl
      rw [hreports]
      have hstart : s.Performs s moved [] := .of_eq rfl rfl
      exact hstart.trans (hfired.trans hrest)

theorem performs_advance {s s' : Session R} {seconds : R} {reports : List (Report R)}
    (h : s.advance? seconds = some (reports, s')) : s.Performs s s' reports := by
  obtain ⟨firings, timers, hdrain, -⟩ := advance?_eq_some h
  rw [advance?_of_drain? hdrain] at h
  obtain ⟨rfl, rfl⟩ := Prod.mk.inj (Option.some_inj.mp h)
  have hdelivered := s.performs_deliver firings
  exact ⟨hdelivered.events_eq, hdelivered.generator_eq⟩

theorem performs_effect? {s s' : Session R} {c : Command R} {outcome : Outcome R}
    (hc : c.isKeystroke = false) (h : s.effect? c = some (outcome, s')) :
    s'.Performs s s' outcome.toReports := by
  cases c with
  | edit document =>
      obtain ⟨rfl, rfl⟩ := Prod.mk.inj (Option.some_inj.mp h)
      let edited : Session R := { s with document }
      have hticked := edited.performs_tick.congr (config_tick edited) (document_tick edited)
      exact ⟨hticked.events_eq, hticked.generator_eq⟩
  | tick =>
      obtain ⟨rfl, rfl⟩ := Prod.mk.inj (Option.some_inj.mp h)
      exact s.performs_tick.congr (config_tick s) (document_tick s)
  | keystroke caret key => exact absurd hc (by simp [Command.isKeystroke])
  | timerFired handle =>
      obtain ⟨rfl, rfl⟩ := Prod.mk.inj (Option.some_inj.mp h)
      have hsame := s.sameLoops_timerFired handle
      exact (s.performs_timerFired handle).congr hsame.config_eq hsame.document_eq
  | advance seconds =>
      obtain ⟨reports, hadvance, rfl⟩ := effect?_advance_eq_some h
      obtain ⟨firings, timers, -, rfl⟩ := advance?_eq_some hadvance
      have hsame := s.sameLoops_deliver firings
      exact (performs_advance hadvance).congr hsame.config_eq hsame.document_eq
  | stopAll =>
      obtain ⟨rfl, rfl⟩ := Prod.mk.inj (Option.some_inj.mp h)
      exact .of_eq rfl rfl

/-- **Nothing else is recorded.** What a command records are the events of its
reports, performed one after the other, and what it has typed. -/
theorem events_effect? {s s' : Session R} {c : Command R} {outcome : Outcome R}
    (h : s.effect? c = some (outcome, s')) :
    s'.recorder.events.toList = s.recorder.events.toList ++
      (s'.performAll s.generator outcome.toReports).1.flatMap Performed.events ++
        outcome.typed := by
  cases hc : c.isKeystroke with
  | false =>
      have houtcome : outcome.typed = [] :=
        (outcome.not_typed ((isKeystroke_of_effect? h).trans hc)).1
      rw [houtcome, List.append_nil]
      exact (performs_effect? hc h).events_eq
  | true =>
      cases c with
      | keystroke caret key =>
          rw [effect?_keystroke] at h
          obtain ⟨rfl, rfl⟩ := Prod.mk.inj (Option.some_inj.mp h)
          obtain ⟨liveGenerator, hafter⟩ := s.exists_keystroke caret key
          rw [hafter]
          simp [Outcome.toReports, performAll]
      | _ => exact absurd hc Bool.false_ne_true

/-- What is recorded of a report is a performance of its tokens. -/
structure PerformsOne (s : Session R) (x : Performed R) : Prop where
  tokens_eq : x.tokens = s.tokensOf x.report
  exists_events : ∃ g, x.events = (perform s.config x.report.start g x.tokens).events

theorem performsOne_of_mem {s : Session R} {g : Generator} {rs : List (Report R)}
    {x : Performed R} (hx : x ∈ (s.performAll g rs).1) : s.PerformsOne x := by
  induction rs generalizing g with
  | nil => exact absurd hx List.not_mem_nil
  | cons r rs ih =>
      rcases List.mem_cons.mp hx with rfl | hx
      · exact ⟨rfl, g, rfl⟩
      · exact ih hx

theorem map_report_performAll (s : Session R) (g : Generator) (rs : List (Report R)) :
    (s.performAll g rs).1.map Performed.report = rs := by
  induction rs generalizing g with
  | nil => rfl
  | cons r rs ih => exact congrArg (r :: ·) (ih _)

omit [Scalar R] in
theorem isLetter_of_mem_tokensOf {s : Session R} {r : Report R} {t : Token R}
    (ht : t ∈ s.tokensOf r) {l : Letter R} (hl : l ∈ t.letters) : isLetter l.char = true := by
  rw [tokensOf] at ht
  split at ht
  · exact absurd ht List.not_mem_nil
  · split at ht
    · exact Token.isLetter_of_mem_ofCells ht hl
    · exact Score.isLetter_of_mem_loop ht hl

end Session

/-! ## The velocities of what is recorded -/

theorem Sound.exists_velocity_of_ofToken? {config : Config R} {t : Token R} {g : Generator}
    {sound : Sound R} (h : (Sound.ofToken? config t g).1 = some sound) :
    ∃ size accent, sound.velocity = config.velocity.velocity size accent := by
  rw [Sound.ofToken?] at h
  split at h
  · cases h
  · rename_i a _
    split at h
    · cases h
    · cases h
      exact ⟨a.size, t.accent, rfl⟩

theorem Sound.velocity_of_ofChar? {config : Config R} {accent random : Bool}
    {a : Attributes R} {c : Char} {g : Generator} {sound : Sound R}
    (h : (Sound.ofChar? config accent random a c g).1 = some sound) :
    sound.velocity = config.velocity.velocity a.size accent := by
  rw [Sound.ofChar?] at h
  split at h
  · cases h
    rfl
  · obtain ⟨pitch, -, rfl⟩ := Option.map_eq_some_iff.mp h
    rfl

theorem exists_velocity_of_mem_perform {config : Config R} {time : R} {g : Generator}
    {ts : List (Token R)} {e : NoteEvent R} (h : e ∈ (perform config time g ts).events) :
    ∃ size accent, e.velocity = config.velocity.velocity size accent := by
  induction ts generalizing time g with
  | nil => exact absurd h List.not_mem_nil
  | cons t ts ih =>
      rw [perform] at h
      cases hs : (Sound.ofToken? config t g).1 with
      | none =>
          simp only [hs] at h
          exact ih h
      | some sound =>
          simp only [hs] at h
          rcases List.mem_cons.mp h with rfl | h
          · exact Sound.exists_velocity_of_ofToken? hs
          · exact ih h

namespace Session

theorem exists_velocity_of_played {s : Session R} {caret : Caret} {key : Char}
    {e : NoteEvent R} (h : (s.keystroke caret key).1 = .played e) :
    ∃ size accent, e.velocity = s.config.velocity.velocity size accent := by
  simp only [keystroke] at h
  split at h
  · split at h
    · cases h
    · split at h
      · cases h
      · split at h
        · cases h
        · rw [strike] at h
          split at h
          · cases h
          · rename_i sound liveGenerator hsound
            cases h
            exact ⟨_, _, Sound.velocity_of_ofChar? (congrArg Prod.fst hsound)⟩
  · cases h

theorem exists_velocity_of_mem_typed {s s' : Session R} {c : Command R} {outcome : Outcome R}
    (h : s.effect? c = some (outcome, s')) {e : NoteEvent R} (he : e ∈ outcome.typed) :
    ∃ size accent, e.velocity = s.config.velocity.velocity size accent := by
  cases hc : c.isKeystroke with
  | false =>
      rw [(outcome.not_typed ((isKeystroke_of_effect? h).trans hc)).1] at he
      exact absurd he List.not_mem_nil
  | true =>
      cases c with
      | keystroke caret key =>
          rw [effect?_keystroke] at h
          obtain ⟨rfl, -⟩ := Prod.mk.inj (Option.some_inj.mp h)
          cases hplayed : (s.keystroke caret key).1 with
          | played event =>
              rw [hplayed] at he
              rw [List.mem_singleton.mp he]
              exact exists_velocity_of_played hplayed
          | _ =>
              rw [hplayed] at he
              exact absurd he List.not_mem_nil
      | _ => exact absurd hc Bool.false_ne_true

/-- **A call comes back exactly if there is a velocity for each sound that it makes.** -/
theorem comesBack_iff_velocities {s s' : Session R} {c : Command R} {outcome : Outcome R}
    (h : s.effect? c = some (outcome, s')) :
    s.comesBack s' = true ↔
      ∃ es, s'.recorder.events.toList = s.recorder.events.toList ++ es ∧
        ∀ e ∈ es, ∃ size accent, s.config.velocity.velocity? size accent = some e.velocity := by
  have hevents := events_effect? h
  rw [List.append_assoc] at hevents
  constructor
  · intro hback
    refine ⟨_, hevents, fun e he => ?_⟩
    rcases (comesBack_iff hevents).mp hback with hbounded | hnone
    · obtain ⟨size, accent, hvelocity⟩ :
          ∃ size accent, e.velocity = s.config.velocity.velocity size accent := by
        rcases List.mem_append.mp he with hplayed | htyped
        · obtain ⟨x, hx, hmem⟩ := List.mem_flatMap.mp hplayed
          obtain ⟨g, hperformed⟩ := (performsOne_of_mem hx).exists_events
          rw [← config_effect? h]
          exact exists_velocity_of_mem_perform (hperformed ▸ hmem)
        · exact exists_velocity_of_mem_typed h htyped
      exact ⟨size, accent, by rw [VelocityCurve.velocity?, if_pos hbounded, hvelocity]⟩
    · rw [hnone] at he
      exact absurd he List.not_mem_nil
  · rintro ⟨es, hes, hgiven⟩
    rw [comesBack_iff hes]
    refine or_iff_not_imp_right.mpr fun hne => ?_
    obtain ⟨e, he⟩ := List.exists_mem_of_ne_nil es hne
    obtain ⟨size, accent, hvelocity⟩ := hgiven e he
    by_contra hunbounded
    rw [VelocityCurve.velocity?, if_neg hunbounded] at hvelocity
    cases hvelocity

end Session

/-! ## Two performances -/

/-- One report with the same tokens, performed in two ways that differ at most in the
pitches of random tokens. -/
structure Performed.Alike (x x' : Performed R) : Prop where
  report_eq : x.report = x'.report
  tokens_eq : x.tokens = x'.tokens
  sound : Token.SoundAlike x.tokens x.events x'.events

namespace Session

theorem PerformsOne.alike {s s' : Session R} {x x' : Performed R} (h : s.PerformsOne x)
    (h' : s'.PerformsOne x') (hreport : x.report = x'.report) (hconfig : s.config = s'.config)
    (hdocument : s.document[x.report.paragraph]? = s'.document[x.report.paragraph]?) :
    x.Alike x' := by
  have htokens : x.tokens = x'.tokens := by
    rw [h.tokens_eq, h'.tokens_eq, tokensOf, tokensOf, hconfig, hdocument, hreport]
  obtain ⟨g, hevents⟩ := h.exists_events
  obtain ⟨g', hevents'⟩ := h'.exists_events
  refine ⟨hreport, htokens, ?_⟩
  rw [hevents, hevents', ← hreport, ← htokens, ← hconfig]
  apply soundAlike_perform
  intro t ht l hl
  rw [h.tokens_eq] at ht
  exact isLetter_of_mem_tokensOf ht hl

/-- Where two sessions have the same paragraph and its reports are the same, so are
its performances but for what is drawn. -/
theorem forall₂_performAll {s s' : Session R} (hconfig : s.config = s'.config) {i : Nat}
    (hdocument : s.document[i]? = s'.document[i]?) (g g' : Generator) {rs rs' : List (Report R)}
    (hreports : rs.filter (·.paragraph = i) = rs'.filter (·.paragraph = i)) :
    List.Forall₂ Performed.Alike
      ((s.performAll g rs).1.filter (·.report.paragraph = i))
      ((s'.performAll g' rs').1.filter (·.report.paragraph = i)) := by
  have hmap : ∀ (s : Session R) g rs,
      ((s.performAll g rs).1.filter (·.report.paragraph = i)).map Performed.report =
        rs.filter (·.paragraph = i) := by
    intro s g rs
    conv_rhs => rw [← s.map_report_performAll g rs, List.filter_map]
    rfl
  apply forall₂_of_map_eq ((hmap s g rs).trans (hreports.trans (hmap s' g' rs').symm))
  intro x hx x' hx' hreport
  obtain ⟨hx, hi⟩ := List.mem_filter.mp hx
  have hone := performsOne_of_mem hx
  have hone' := performsOne_of_mem (List.mem_of_mem_filter hx')
  exact hone.alike hone' hreport hconfig (of_decide_eq_true hi ▸ hdocument)

end Session
end ProseScore
