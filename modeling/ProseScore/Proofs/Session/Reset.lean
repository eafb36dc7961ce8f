import ProseScore.Proofs.Session.Performed
import ProseScore.Proofs.Session.Preview
import ProseScore.Proofs.Session.Voices
import ProseScore.Proofs.Token.Duration

/-!
# Stopping everything

A session that has been stopped has forgotten what it played.  It stays silent until
the document is looked at again, whoever fires its old handles and however much time
goes by, and then it plays a document as a new session does, at its own time and with
handles that no timer has had.
-/

namespace ProseScore

variable {R : Type}

theorem Registry.Drives.clear_eq {r : Registry R} {loops : Nat → List (LoopTimer R)}
    (h : r.Drives loops) : r.clear = ⟨⟨r.timers.now, r.timers.nextHandle, []⟩, []⟩ := by
  have hrunning : (r.timers.running.filter fun t => t.handle ∉ r.owners.map Prod.fst) = [] := by
    apply List.filter_eq_nil_iff.mpr
    intro t ht
    rw [h.handles_owners]
    simpa using ⟨t, ht, rfl⟩
  have htimers : r.clear.timers = ⟨r.timers.now, r.timers.nextHandle, []⟩ := by
    rw [Registry.clear, Registry.timers_releaseAll, hrunning]
  rw [← htimers, ← r.owners_clear]

variable [Scalar R]

theorem Timers.drain?_of_nil {ts : Timers R} (h : ts.running = []) (horizon : R) :
    ts.drain? horizon = some ([], ts.advanceTo horizon) := by
  have hdue : ts.due? horizon = none := by
    rw [due?_eq_none_iff, h]
    exact fun t ht => absurd ht List.not_mem_nil
  rw [drain?, drainWith_of_none hdue, Option.map_some]

/-- The command looks at the document, so that it can start loops. -/
def Command.looks : Command R → Bool
  | .edit _ => true
  | .tick => true
  | _ => false

namespace Session

/-! ## Silence -/

theorem Coherent.stopAll_eq {s : Session R} (hs : s.Coherent) : s.stopAll = { s with
    table := []
    registry := ⟨⟨s.now, s.registry.timers.nextHandle, []⟩, []⟩
    recorder := s.recorder.silence } := by
  rw [stopAll, hs.drives.clear_eq]
  rfl

/-- No timer is left that could fire. -/
structure Silent (s : Session R) : Prop where
  running_eq : s.registry.timers.running = []
  owners_eq : s.registry.owners = []

namespace Silent

variable {s : Session R}

omit [Scalar R] in
theorem of_sameLoops {s' : Session R} (h : s.Silent) (hsame : s.SameLoops s') : s'.Silent :=
  ⟨hsame.registry_eq ▸ h.running_eq, hsame.registry_eq ▸ h.owners_eq⟩

theorem timerFired_eq (h : s.Silent) (handle : Nat) : s.timerFired handle = (none, s) := by
  apply timerFired_of_none
  rw [Registry.owner?, h.owners_eq]
  rfl

/-- In silence a command that does not look at the document reports nothing and leaves
silence. -/
theorem exists_effect? (h : s.Silent) {c : Command R} (hc : c.looks = false) : ∃ outcome s',
    s.effect? c = some (outcome, s') ∧ outcome.toReports = [] ∧ s'.Silent := by
  cases c with
  | edit document => exact absurd hc.symm Bool.false_ne_true
  | tick => exact absurd hc.symm Bool.false_ne_true
  | keystroke caret key =>
      exact ⟨.keystroke (s.keystroke caret key).1, _, rfl, rfl,
        h.of_sameLoops (s.sameLoops_keystroke caret key)⟩
  | timerFired handle =>
      refine ⟨.fired none, s, ?_, rfl, h⟩
      rw [effect?, h.timerFired_eq]
  | advance seconds =>
      have hdrain := Timers.drain?_of_nil h.running_eq (s.now + seconds)
      obtain ⟨s', hadvance, hs'⟩ : ∃ s', s.advance? seconds = some ([], s') ∧ s'.Silent :=
        ⟨_, advance?_of_drain? hdrain, h.running_eq, h.owners_eq⟩
      refine ⟨.reports [], s', ?_, rfl, hs'⟩
      rw [effect?, hadvance]
      rfl
  | stopAll =>
      have hclear : s.registry.clear = s.registry := by
        rw [Registry.clear, h.owners_eq]
        rfl
      refine ⟨.stopped, s.stopAll, rfl, rfl, ?_⟩
      rw [stopAll, hclear]
      exact ⟨h.running_eq, h.owners_eq⟩

theorem step (h : s.Silent) {c : Command R} (hc : c.looks = false) {s' : Session R}
    {outcome : Outcome R} (hstep : s.step? c = some (outcome, s')) :
    outcome.toReports = [] ∧ s'.Silent := by
  obtain ⟨_, _, heffect, hreports, hs'⟩ := h.exists_effect? hc
  obtain ⟨rfl, rfl⟩ :=
    Prod.mk.inj (Option.some_inj.mp ((effect?_of_step? hstep).symm.trans heffect))
  exact ⟨hreports, hs'⟩

/-- Only a keystroke can ask for a velocity. -/
theorem exists_step? (h : s.Silent) {c : Command R} (hc : c.looks = false)
    (hback : s.config.velocity.Bounded ∨ c.isKeystroke = false) :
    ∃ outcome s', s.step? c = some (outcome, s') := by
  obtain ⟨outcome, s', heffect, hreports, -⟩ := h.exists_effect? hc
  refine ⟨outcome, s', step?_eq_some_iff.mpr ⟨heffect, ?_⟩⟩
  have hevents := events_effect? heffect
  rw [hreports, List.append_assoc] at hevents
  rw [comesBack_iff hevents]
  refine hback.imp_right fun hkey => ?_
  rw [(outcome.not_typed ((isKeystroke_of_effect? heffect).trans hkey)).1]
  rfl

theorem run {commands : List (Command R)} (h : s.Silent)
    (hcommands : ∀ c ∈ commands, c.looks = false) {outcomes : List (Outcome R)} {t : Session R}
    (hrun : s.run? commands = some (outcomes, t)) :
    ∀ outcome ∈ outcomes, outcome.toReports = [] := by
  induction commands generalizing s outcomes with
  | nil =>
      obtain ⟨rfl, -⟩ := Prod.mk.inj (Option.some_inj.mp hrun)
      exact fun _ houtcome => absurd houtcome List.not_mem_nil
  | cons c commands ih =>
      obtain ⟨hc, hcommands⟩ := List.forall_mem_cons.mp hcommands
      obtain ⟨outcome, next, rest, hstep, hrest, rfl⟩ := run?_cons_eq_some hrun
      obtain ⟨hnothing, hnext⟩ := h.step hc hstep
      exact List.forall_mem_cons.mpr ⟨hnothing, ih hnext hcommands hrest⟩

theorem exists_run? {commands : List (Command R)} (h : s.Silent)
    (hcommands : ∀ c ∈ commands, c.looks = false)
    (hback : s.config.velocity.Bounded ∨ ∀ c ∈ commands, c.isKeystroke = false) :
    ∃ outcomes t, s.run? commands = some (outcomes, t) := by
  induction commands generalizing s with
  | nil => exact ⟨[], s, rfl⟩
  | cons c commands ih =>
      obtain ⟨hc, hcommands⟩ := List.forall_mem_cons.mp hcommands
      rw [List.forall_mem_cons] at hback
      obtain ⟨outcome, next, hstep⟩ := h.exists_step? hc (hback.imp_right And.left)
      obtain ⟨outcomes, t, hrun⟩ := ih (h.step hc hstep).2 hcommands
        ((config_step? hstep).symm ▸ hback.imp_right And.right)
      refine ⟨outcome :: outcomes, t, ?_⟩
      rw [run?_cons_of_step? hstep, hrun]
      rfl

end Silent

theorem Coherent.silent_stopAll {s : Session R} (hs : s.Coherent) : s.stopAll.Silent := by
  rw [hs.stopAll_eq]
  exact ⟨rfl, rfl⟩

/-! ## Handles -/

/-- All loops that run have been started behind so many handles. -/
structure Since (n : Nat) (s : Session R) : Prop where
  le_nextHandle : n ≤ s.registry.timers.nextHandle
  le_handle : ∀ i, ∀ l ∈ s.table.loops i, n ≤ l.handle

theorem nextHandle_le_of_step? {s s' : Session R} {c : Command R} {outcome : Outcome R}
    (h : s.step? c = some (outcome, s')) :
    s.registry.timers.nextHandle ≤ s'.registry.timers.nextHandle := by
  rcases step?_clocks h with ⟨hleads, -⟩ | ⟨horizon, firings, last, hdrains, htimers, -⟩
  · exact hleads.nextHandle_le
  · rw [htimers]
    exact Nat.le_of_eq hdrains.sameTimers.nextHandle_eq.symm

theorem Since.step {n : Nat} {s s' : Session R} (hs : s.Since n) {c : Command R}
    {outcome : Outcome R} (h : s.step? c = some (outcome, s')) : s'.Since n where
  le_nextHandle := Nat.le_trans hs.le_nextHandle (nextHandle_le_of_step? h)
  le_handle := by
    intro i l hl
    rcases effect?_cases (effect?_of_step? h) with ⟨document, -, -, rfl⟩ | ⟨hsame, -⟩ | ⟨-, -, rfl⟩
    · rcases mem_loops_tick hl with hold | hnew
      · exact hs.le_handle i l hold
      · exact Nat.le_trans hs.le_nextHandle hnew
    · exact hs.le_handle i l (hsame.table_eq ▸ hl)
    · exact absurd hl List.not_mem_nil

theorem Since.timerFired_eq {n : Nat} {s : Session R} (h : s.Since n) (hs : s.Coherent)
    {handle : Nat} (hlt : handle < n) : s.timerFired handle = (none, s) := by
  apply timerFired_of_none
  rw [← Option.not_isSome_iff_eq_none, hs.drives.isSome_owner?_iff]
  rintro ⟨i, l, hl, rfl⟩
  exact absurd (h.le_handle i l hl) (Nat.not_le.mpr hlt)

theorem Since.le_of_mem_running {n : Nat} {s : Session R} (h : s.Since n) (hs : s.Coherent)
    {t : Timer R} (ht : t ∈ s.registry.timers.running) : n ≤ t.handle := by
  obtain ⟨i, l, hl, hhandle⟩ := hs.drives.mem_handles_iff.mp (List.mem_map_of_mem ht)
  exact hhandle ▸ h.le_handle i l hl

/-! ## Beginning again -/

/-- Two sessions, each given the document at its own time, play it alike. -/
structure BeginsLike (document : Document R) (s s' : Session R) : Prop where
  reports : ∃ bodies : List (Nat × List (Token R)),
    (s.edit document).1 =
      bodies.map (fun body => .telling body.1 .oneShot s.recorder.now body.2) ∧
    (s'.edit document).1 =
      bodies.map fun body => .telling body.1 .oneShot s'.recorder.now body.2
  isActive_eq : ∀ i, ((s.edit document).2.table.state i).isActive =
    ((s'.edit document).2.table.state i).isActive
  loops_eq : ∀ i, ((s.edit document).2.table.loops i).map (fun l => (l.key, l.period)) =
    ((s'.edit document).2.table.loops i).map fun l => (l.key, l.period)

theorem loops_tick_of_nil {s : Session R} (hs : s.table = []) (i : Nat) :
    (s.tick.2.table.loops i).map (fun l => (l.key, l.period)) =
      ((s.score? i).map (Score.demands s.config)).getD [] := by
  cases hscore : s.score? i with
  | none =>
      rw [LoopTable.loops, state_tick_of_none hscore]
      rfl
  | some score =>
      have hidle : s.table.state i = .idle := by
        rw [hs]
        rfl
      exact loops_tick_of_idle hidle hscore

/-- Where no table has an entry, only the document counts. -/
theorem beginsLike_of_nil {s s' : Session R} (hconfig : s.config = s'.config)
    (hs : s.table = []) (hs' : s'.table = []) (document : Document R) :
    BeginsLike document s s' := by
  let edited : Session R := { s with document }
  let edited' : Session R := { s' with document }
  have hscore (i : Nat) : edited.score? i = edited'.score? i := by
    simp only [score?, edited, edited', hconfig]
  have hbodies : edited.table.openings 0 edited.scores =
      edited'.table.openings 0 edited'.scores := by
    simp only [scores, edited, edited', hconfig, hs, hs']
  refine ⟨⟨edited.table.openings 0 edited.scores, edited.tick_fst, ?_⟩, fun i => ?_, fun i => ?_⟩
  · rw [hbodies]
    exact edited'.tick_fst
  · rw [Bool.eq_iff_iff]
    have hactive := isActive_tick_iff edited i
    have hactive' := isActive_tick_iff edited' i
    rw [hscore] at hactive
    exact hactive.trans hactive'.symm
  · have hloops := loops_tick_of_nil (s := edited) hs i
    have hloops' := loops_tick_of_nil (s := edited') hs' i
    have hsame : edited.config = edited'.config := hconfig
    rw [hscore, hsame] at hloops
    exact hloops.trans hloops'.symm

/-- In exact time the reports differ in nothing but their start. -/
theorem BeginsLike.reports_eq {document : Document R} {s s' : Session R}
    (h : BeginsLike document s s')
    (hexact : ∀ (start : R) (ts : List (Token R)),
      ts.foldl (fun time t => time + t.duration) start - start = Token.total ts) :
    (s.edit document).1 =
      (s'.edit document).1.map fun r => { r with start := s.recorder.now } := by
  obtain ⟨bodies, hreports, hreports'⟩ := h.reports
  rw [hreports, hreports', List.map_map]
  apply List.map_congr_left
  intro body _
  simp only [Function.comp_apply, Report.telling, hexact]

theorem find?_edit_of_nil {s : Session R} (hs : s.Coherent) (htable : s.table = [])
    (document : Document R) {i : Nat} {l : LoopTimer R}
    (hl : l ∈ (s.edit document).2.table.loops i) :
    (s.edit document).2.registry.timers.find? l.handle =
      some ⟨l.handle, l.period, s.now + l.period⟩ := by
  let edited : Session R := { s with document }
  have hnew : s.registry.timers.nextHandle ≤ l.handle := by
    rcases mem_loops_tick (s := edited) hl with hold | hnew
    · rw [show edited.table = [] from htable] at hold
      exact absurd hold List.not_mem_nil
    · exact hnew
  exact find?_tick_of_new (s := edited) hs.drives (hs.edit document).drives hnew hl

theorem step?_edit_eq_none_iff_of_nil {s s' : Session R} (hconfig : s.config = s'.config)
    (hs : s.table = []) (hs' : s'.table = []) (document : Document R) :
    s.step? (.edit document) = none ↔ s'.step? (.edit document) = none := by
  have hnone (s : Session R) : s.step? (.edit document) = none ↔
      ¬ s.comesBack (s.edit document).2 = true := step?_eq_none_iff rfl
  have hback : s.comesBack (s.edit document).2 = true ↔ _ :=
    comesBack_tick_iff { s with document }
  have hback' : s'.comesBack (s'.edit document).2 = true ↔ _ :=
    comesBack_tick_iff { s' with document }
  simp only [hconfig, hs] at hback
  simp only [hs'] at hback'
  rw [hnone, hnone, hback, hback']

/-- **A stop is a reset.** Behind it there is no timer, no owner and no table, and
stopping once more is only counted.  Until a command looks at the document, commands
report nothing, and they have answers, unless a keystroke asks for a velocity where the
bounds are out of order.  In whatever way the session goes on, no handle from before
plays or is handed out again.  And a document plays as in a new session, with the same
bodies reported from the time of the recorder, and with the same loops due one period
from now. -/
theorem stopAll_begins_anew {config : Config R} {s : Session R} (hs : s.Attainable config) :
    s.stopAll.registry = ⟨⟨s.now, s.registry.timers.nextHandle, []⟩, []⟩ ∧
    s.stopAll.table = [] ∧
    s.stopAll.stopAll = { s.stopAll with recorder := s.stopAll.recorder.silence } ∧
    (∀ commands, (∀ c ∈ commands, c.looks = false) →
      (∀ outcomes t, s.stopAll.run? commands = some (outcomes, t) →
        ∀ outcome ∈ outcomes, outcome.toReports = []) ∧
      (config.velocity.Bounded ∨ (∀ c ∈ commands, c.isKeystroke = false) →
        ∃ outcomes t, s.stopAll.run? commands = some (outcomes, t))) ∧
    (∀ commands outcomes t, s.stopAll.run? commands = some (outcomes, t) →
      (∀ handle < s.registry.timers.nextHandle, t.timerFired handle = (none, t)) ∧
      s.registry.timers.nextHandle ≤ t.registry.timers.nextHandle ∧
      ∀ timer ∈ t.registry.timers.running, s.registry.timers.nextHandle ≤ timer.handle) ∧
    ∀ document drawn drawnLive, BeginsLike document s.stopAll (new config drawn drawnLive) ∧
      (s.stopAll.step? (.edit document) = none ↔
        (new config drawn drawnLive).step? (.edit document) = none) ∧
      (∀ i, ∀ l ∈ (s.stopAll.edit document).2.table.loops i,
        (s.stopAll.edit document).2.registry.timers.find? l.handle =
          some ⟨l.handle, l.period, s.now + l.period⟩) ∧
      ((∀ (start : R) (ts : List (Token R)),
          ts.foldl (fun time t => time + t.duration) start - start = Token.total ts) →
        (s.stopAll.edit document).1 = ((new config drawn drawnLive).edit document).1.map
          fun r => { r with start := s.recorder.now }) := by
  obtain ⟨hconfig, hcoherent⟩ := hs.config_and_coherent
  have hstop := hcoherent.stopAll_eq
  have hregistry : s.stopAll.registry = ⟨⟨s.now, s.registry.timers.nextHandle, []⟩, []⟩ :=
    congrArg Session.registry hstop
  have hstopped : s.stopAll.Attainable config := hs.step s.step?_stopAll
  have hsince : s.stopAll.Since s.registry.timers.nextHandle := by
    refine ⟨?_, fun i l hl => absurd hl List.not_mem_nil⟩
    rw [hregistry]
  refine ⟨hregistry, rfl, ?_, fun commands hcommands => ⟨?_, ?_⟩, ?_, ?_⟩
  · rw [hstop]
    rfl
  · exact fun outcomes t hrun => hcoherent.silent_stopAll.run hcommands hrun
  · rw [← hconfig]
    exact hcoherent.silent_stopAll.exists_run? hcommands
  · intro commands outcomes t hrun
    have hlater : t.Coherent := (hstopped.of_run? hrun).coherent
    have ht : t.Since s.registry.timers.nextHandle := hstopped.keeps_of_run?
      (P := fun t => t.Since s.registry.timers.nextHandle)
      (fun _ _ _ _ _ h hstep => h.step hstep) hsince hrun
    exact ⟨fun handle hlt => ht.timerFired_eq hlater hlt, ht.le_nextHandle,
      fun timer htimer => ht.le_of_mem_running hlater htimer⟩
  · intro document drawn drawnLive
    have hlike : BeginsLike document s.stopAll (new config drawn drawnLive) :=
      beginsLike_of_nil hconfig rfl rfl document
    have hnow : s.stopAll.now = s.now := by
      rw [now, hregistry]
    refine ⟨hlike, step?_edit_eq_none_iff_of_nil hconfig rfl rfl document, fun i l hl => ?_,
      hlike.reports_eq⟩
    rw [← hnow]
    exact find?_edit_of_nil hstopped.coherent rfl document hl

/-- Two loops have played for a second when everything is stopped. -/
theorem stopAll_begins_anew_behind_loops :
    let document : Document Rat := Document.ofText "x [a].".toList
    let fresh := new (Config.standard : Config Rat) (.ofSeed 0) (.ofSeed 1)
    ∃ s : Session Rat, s.Attainable Config.standard ∧ s.now = 1 ∧
      s.registry.timers.nextHandle = 2 ∧ (s.stopAll.timerFired 1).1 = none ∧
      (s.stopAll.edit document).2.registry.timers.running = [⟨2, 34 / 100, 134 / 100⟩] ∧
      (s.stopAll.edit document).1 =
        (fresh.edit document).1.map fun r => { r with start := 1 } := by
  intro document fresh
  have hrun : (fresh.run?
      [.edit (Document.ofText "[a] [b c].".toList), .advance 1]).map (fun r =>
        ((r.2.now, r.2.recorder.now), r.2.registry.timers.nextHandle,
          (r.2.stopAll.edit document).2.registry.timers.running)) =
      some ((1, 1), 2, [⟨2, 34 / 100, 134 / 100⟩]) := by decide +kernel
  obtain ⟨⟨outcomes, s⟩, hrun, hfacts⟩ := Option.map_eq_some_iff.mp hrun
  obtain ⟨hclocks, hfacts⟩ := Prod.mk.inj hfacts
  obtain ⟨hnow, hrecorder⟩ := Prod.mk.inj hclocks
  obtain ⟨hnext, hrunning⟩ := Prod.mk.inj hfacts
  have hs : s.Attainable Config.standard := Attainable.new.of_run? hrun
  obtain ⟨-, -, -, -, hlater, hbegins⟩ := stopAll_begins_anew hs
  have hold := (hlater [] [] s.stopAll rfl).1 1 (by rw [hnext]; decide)
  have hreports := (hbegins document (.ofSeed 0) (.ofSeed 1)).2.2.2 Token.foldl_duration_sub
  rw [hrecorder] at hreports
  exact ⟨s, hs, hnow, hnext, congrArg Prod.fst hold, hrunning, hreports⟩

/-- In binary64 numbers a body that begins at one second takes longer than the same body
at zero. -/
theorem body_takes_longer_behind_stop :
    let durations (commands : List (Command Float)) :=
      ((new Config.standard (.ofSeed 0) (.ofSeed 1)).run? commands).map fun r =>
        r.1.flatMap fun o => o.toReports.map fun report => report.duration.toBits
    let edit : Command Float := .edit (Document.ofText "a.".toList)
    durations [.advance 1, .stopAll, edit] = some [0x3fd5c28f5c28f5c4] ∧
      durations [edit] = some [0x3fd5c28f5c28f5c3] := by
  decide +kernel

end Session
end ProseScore
