import ProseScore.Proofs.Score.Ordinals
import ProseScore.Proofs.Session.Independence

/-!
# Every sound is accounted for

Whoever hears a session can tell from its answers what each sound was: what has been
recorded is cut into one segment for each report and one event for each key that was
played.  The pitches of a segment are the letters of its report, counted token by
token, and the report names them by their places among the letters of the text.
-/

namespace ProseScore

variable {R : Type}

/-! ## What a report tells -/

namespace Session

/-- A report on a paragraph of the session that names all letters which it plays. -/
structure Tells (s : Session R) (r : Report R) : Prop where
  exists_paragraph : ∃ p, s.document[r.paragraph]? = some p
  letters_eq : r.letters = ((s.tokensOf r).flatMap Token.letters).map Letter.index

theorem Tells.congr {s s' : Session R} {r : Report R} (h : s.Tells r)
    (hconfig : s'.config = s.config) (hdocument : s'.document = s.document) : s'.Tells r where
  exists_paragraph := hdocument ▸ h.exists_paragraph
  letters_eq := by
    rw [h.letters_eq, tokensOf, tokensOf, hconfig, hdocument]

theorem Tells.of_sameLoops {s s' : Session R} {r : Report R} (h : s'.Tells r)
    (hsame : s.SameLoops s') : s.Tells r :=
  h.congr hsame.config_eq.symm hsame.document_eq.symm

variable [Scalar R]

theorem tells_tick (s : Session R) {r : Report R} (hr : r ∈ s.tick.1) : s.Tells r := by
  obtain ⟨p, hp, hsource, -, hletters⟩ := s.playsBodies_tick.report_eq r hr
  refine ⟨⟨p, hp⟩, ?_⟩
  rw [hletters, tokensOf, hp, hsource, List.map_flatMap]
  rfl

theorem tells_timerFired {s : Session R} {handle : Nat} {r : Report R}
    (hr : (s.timerFired handle).1 = some r) : s.Tells r := by
  rw [timerFired_fst, reportOf?] at hr
  obtain ⟨owner, -, hloop⟩ := Option.bind_eq_some_iff.mp hr
  obtain ⟨p, hp, htelling⟩ := Option.bind_eq_some_iff.mp hloop
  split at htelling
  · exact absurd htelling (Option.some_ne_none r).symm
  · obtain rfl := Option.some_inj.mp htelling
    refine ⟨⟨p, hp⟩, ?_⟩
    simp only [Report.telling, tokensOf, hp, List.map_flatMap]

theorem tells_deliver {s : Session R} {firings : List (Firing R)} {r : Report R}
    (hr : r ∈ (s.deliver firings).1.filterMap Prod.snd) : s.Tells r := by
  induction firings generalizing s with
  | nil => exact absurd hr List.not_mem_nil
  | cons f firings ih =>
      let moved : Session R := { s with recorder := s.recorder.advanceTo f.due }
      have hmoved : s.SameLoops moved := ⟨rfl, rfl, rfl, rfl⟩
      obtain ⟨⟨f', report?⟩, hmem, rfl⟩ := List.mem_filterMap.mp hr
      rcases List.mem_cons.mp hmem with heq | hmem
      · exact (tells_timerFired (Prod.mk.inj heq).2.symm).of_sameLoops hmoved
      · have hlater : (moved.timerFired f.handle).2.Tells r :=
          ih (List.mem_filterMap.mpr ⟨_, hmem, rfl⟩)
        exact hlater.of_sameLoops (hmoved.trans (moved.sameLoops_timerFired f.handle))

/-- Every report of a command is on a paragraph of the session that the command leaves. -/
theorem tells_step {s s' : Session R} {c : Command R} {outcome : Outcome R}
    (h : s.step? c = some (outcome, s')) {r : Report R} (hr : r ∈ outcome.toReports) :
    s'.Tells r := by
  have h := effect?_of_step? h
  cases c with
  | edit document =>
      obtain ⟨rfl, rfl⟩ := Prod.mk.inj (Option.some_inj.mp h)
      let edited : Session R := { s with document }
      exact (edited.tells_tick hr).congr (config_tick edited) (document_tick edited)
  | tick =>
      obtain ⟨rfl, rfl⟩ := Prod.mk.inj (Option.some_inj.mp h)
      exact (s.tells_tick hr).congr (config_tick s) (document_tick s)
  | keystroke caret key =>
      obtain ⟨rfl, rfl⟩ := Prod.mk.inj (Option.some_inj.mp h)
      exact absurd hr List.not_mem_nil
  | timerFired handle =>
      obtain ⟨rfl, rfl⟩ := Prod.mk.inj (Option.some_inj.mp h)
      have hsame := s.sameLoops_timerFired handle
      exact (tells_timerFired (Option.mem_toList.mp hr)).congr hsame.config_eq hsame.document_eq
  | advance seconds =>
      obtain ⟨reports, hadvance, rfl⟩ := effect?_advance_eq_some h
      obtain ⟨firings, timers, hdrain, rfl⟩ := advance?_eq_some hadvance
      rw [advance?_of_drain? hdrain] at hadvance
      obtain ⟨rfl, -⟩ := Prod.mk.inj (Option.some_inj.mp hadvance)
      have hsame := s.sameLoops_deliver firings
      exact (tells_deliver hr).congr hsame.config_eq hsame.document_eq
  | stopAll =>
      obtain ⟨rfl, rfl⟩ := Prod.mk.inj (Option.some_inj.mp h)
      exact absurd hr List.not_mem_nil

omit [Scalar R] in
theorem tokensOf_sublist {s : Session R} {r : Report R} {p : Paragraph R}
    (hp : s.document[r.paragraph]? = some p) : (s.tokensOf r).Sublist
      (Token.ofCells s.config [] (Cell.ofParagraph s.config.baseSize p)) := by
  rw [tokensOf, hp]
  cases r.source with
  | oneShot => exact Score.body_sublist s.config _
  | loop key => exact Score.loop_sublist s.config _ key

end Session

/-! ## What is recorded of a report -/

/-- What is recorded of a report is what it tells: its tokens with letters have an event
each, with a pitch for each letter, and its letters are those of the tokens, in the order
of the text, where each finds its character by its ordinal. -/
structure Performed.Accounts (s : Session R) (x : Performed R) : Prop where
  tokens_eq : x.tokens = s.tokensOf x.report
  pitches : List.Forall₂ (fun t e => e.pitches.length = t.letters.length)
    (x.tokens.filter fun t => !t.letters.isEmpty) x.events
  sum_pitches : (x.events.map fun e => e.pitches.length).sum = x.report.letters.length
  letters_eq : x.report.letters = (x.tokens.flatMap Token.letters).map Letter.index
  increasing : x.report.letters.Pairwise (· < ·)
  named : ∃ p, s.document[x.report.paragraph]? = some p ∧
    ∀ l ∈ x.tokens.flatMap Token.letters, (p.text.filter isLetter)[l.index]? = some l.char

/-- What a step has recorded. -/
def Step.recorded [Scalar R] (x : Step R) : List (NoteEvent R) :=
  x.performed.flatMap Performed.events ++ x.outcome.typed

theorem Token.SoundAlike.sum_pitches {ts : List (Token R)} {es es' : List (NoteEvent R)}
    (h : SoundAlike ts es es') :
    (es.map fun e => e.pitches.length).sum = (ts.flatMap letters).length := by
  induction h with
  | nil => rfl
  | silent hnil _ ih => rw [List.flatMap_cons, hnil, List.nil_append, ih]
  | sound halike _ ih =>
      rw [List.map_cons, List.sum_cons, List.flatMap_cons, List.length_append, ih,
        halike.length_pitches]

variable [Scalar R]

namespace Session

theorem PerformsOne.accounts {s : Session R} {x : Performed R} (h : s.PerformsOne x)
    (htells : s.Tells x.report) : x.Accounts s := by
  obtain ⟨p, hp⟩ := htells.exists_paragraph
  obtain ⟨g, hevents⟩ := h.exists_events
  have hsublist := tokensOf_sublist hp
  rw [← h.tokens_eq] at hsublist
  have hletters : ∀ t ∈ x.tokens, ∀ l ∈ t.letters, isLetter l.char = true := by
    rw [h.tokens_eq]
    exact fun t ht l hl => isLetter_of_mem_tokensOf ht hl
  have htold : x.report.letters = (x.tokens.flatMap Token.letters).map Letter.index :=
    h.tokens_eq ▸ htells.letters_eq
  refine ⟨h.tokens_eq, ?_, ?_, htold, ?_, p, hp, fun l hl => ?_⟩
  · rw [hevents]
    exact (alikeBy_perform s.config x.report.start g g hletters).forall₂
  · rw [hevents, htold, List.length_map]
    exact (soundAlike_perform s.config x.report.start g g hletters).sum_pitches
  · rw [htold]
    exact (Token.increasing_ordinals s.config _).sublist
      ((hsublist.flatMap Token.letters).map Letter.index)
  · exact Token.getElem?_index ((hsublist.flatMap Token.letters).subset hl)

theorem length_pitches_of_mem_typed {s s' : Session R} {c : Command R} {outcome : Outcome R}
    (h : s.step? c = some (outcome, s')) {e : NoteEvent R} (he : e ∈ outcome.typed) :
    e.pitches.length = 1 := by
  have h := effect?_of_step? h
  cases hc : c.isKeystroke with
  | false =>
      rw [(outcome.not_typed ((isKeystroke_of_effect? h).trans hc)).1] at he
      exact absurd he List.not_mem_nil
  | true =>
      cases c with
      | keystroke caret key =>
          rw [effect?_keystroke] at h
          obtain ⟨rfl, -⟩ := Prod.mk.inj (Option.some_inj.mp h)
          have hself : Keystroke.Alike _ (s.keystroke caret key).1 (s.keystroke caret key).1 :=
            keystroke_alike rfl rfl rfl key
          generalize (s.keystroke caret key).1 = k at he hself
          cases hself with
          | played halike =>
              obtain rfl := List.mem_singleton.mp he
              exact halike.length_pitches
          | _ => exact absurd he List.not_mem_nil
      | _ => exact absurd hc Bool.false_ne_true

/-! ## Runs -/

/-- A run that comes to an end has a step for each command, with its answer, and leaves
the session of its last step. -/
theorem steps_of_run? {s s' : Session R} {commands : List (Command R)}
    {outcomes : List (Outcome R)} (h : s.run? commands = some (outcomes, s')) :
    (s.steps commands).map Step.command = commands ∧
      (s.steps commands).map Step.outcome = outcomes ∧
      s'.recorder.events.toList =
        s.recorder.events.toList ++ (s.steps commands).flatMap Step.recorded := by
  induction commands generalizing s outcomes with
  | nil =>
      obtain ⟨rfl, rfl⟩ := Prod.mk.inj (Option.some_inj.mp h)
      exact ⟨rfl, rfl, (List.append_nil _).symm⟩
  | cons c commands ih =>
      obtain ⟨outcome, next, rest, hstep, hrest, rfl⟩ := run?_cons_eq_some h
      obtain ⟨hcommands, houtcomes, hevents⟩ := ih hrest
      rw [steps_cons_of_step? hstep, List.map_cons, List.map_cons, hcommands, houtcomes]
      refine ⟨rfl, rfl, ?_⟩
      rw [hevents, events_effect? (effect?_of_step? hstep), List.flatMap_cons, Step.recorded,
        List.append_assoc, List.append_assoc, List.append_assoc]
      rfl

/-- **Every sound is accounted for.** What a run has recorded is, command by command, one
segment for each report of the answer and the event of the key that was played.  Each
segment is the account of its report: as many pitches for an event as the token has
letters, as many in all as the report has, and these named in increasing order by their
places among the letters of the paragraph's text. -/
theorem every_sound_accounted_for {config : Config R} {commands : List (Command R)}
    {outcomes : List (Outcome R)} {s : Session R} {drawn drawnLive : Generator}
    (hrun : (new config drawn drawnLive).run? commands = some (outcomes, s)) :
    let steps := (new config drawn drawnLive).steps commands
    steps.map Step.command = commands ∧ steps.map Step.outcome = outcomes ∧
      s.recorder.events.toList = steps.flatMap Step.recorded ∧
      ∀ x ∈ steps, x.performed.map Performed.report = x.outcome.toReports ∧
        (∀ y ∈ x.performed, y.Accounts x.after) ∧
        ∀ e ∈ x.outcome.typed, e.pitches.length = 1 := by
  intro steps
  obtain ⟨hcommands, houtcomes, hevents⟩ := steps_of_run? hrun
  refine ⟨hcommands, houtcomes, hevents, fun x hx => ?_⟩
  have hstep := step?_of_mem_steps hx
  have hreports : x.performed.map Performed.report = x.outcome.toReports :=
    map_report_performAll _ _ _
  refine ⟨hreports, fun y hy => ?_, fun e he => length_pitches_of_mem_typed hstep he⟩
  have hmem : y.report ∈ x.outcome.toReports := hreports ▸ List.mem_map_of_mem hy
  exact (performsOne_of_mem hy).accounts (tells_step hstep hmem)

/-- A chord, a loop behind it and a key. -/
theorem chord_loop_and_key_accounted_for :
    let commands : List (Command Rat) :=
      [.edit (Document.ofText "\"a\"bc! [d].\n(".toList), .advance (34 / 100),
        .keystroke ⟨1, 1⟩ 'e']
    let start := new Config.standard (.ofSeed 0) (.ofSeed 1)
    let steps := start.steps commands
    ∃ outcomes s, start.run? commands = some (outcomes, s) ∧
      (s.recorder.events.toList.map fun e => e.pitches.length) = [2, 1, 1] ∧
      (outcomes.flatMap fun o => o.toReports.map Report.letters) = [[1, 2], [3]] ∧
      s.recorder.events.toList = steps.flatMap Step.recorded ∧
      ∀ x ∈ steps, ∀ y ∈ x.performed, y.Accounts x.after := by
  intro commands start steps
  have hcounts : (start.run? commands).map (fun r =>
      (r.2.recorder.events.toList.map fun e => e.pitches.length,
        r.1.flatMap fun o => o.toReports.map Report.letters)) =
      some ([2, 1, 1], [[1, 2], [3]]) := by decide +kernel
  obtain ⟨⟨outcomes, s⟩, hrun, hcounts⟩ := Option.map_eq_some_iff.mp hcounts
  obtain ⟨hpitches, hletters⟩ := Prod.mk.inj hcounts
  obtain ⟨-, -, hevents, hsteps⟩ := every_sound_accounted_for hrun
  exact ⟨outcomes, s, hrun, hpitches, hletters, hevents, fun x hx => (hsteps x hx).2.1⟩

end Session
end ProseScore
