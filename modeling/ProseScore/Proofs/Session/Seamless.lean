import ProseScore.Proofs.Session.Steps
import ProseScore.Proofs.Timer.Courses
import ProseScore.Proofs.Token.Duration

/-!
# Loops without a break

The period of a loop is fixed when the loop is started, and how long it plays is
found out anew at each firing, in a document that may have been edited in between.
The two agree all the same, since the text of a loop decides how long it plays.  So
a loop that stays is repeated without a break.
-/

namespace ProseScore

/-! ## Periods and durations -/

theorem Settings.duration_pos {settings : Settings Rat} {config : Config Rat}
    (h : settings.config = .ok config) {excluded : List Extent} {cs : List (Cell Rat)}
    {t : Token Rat} (ht : t ∈ Token.ofCells config excluded cs) : 0 < t.duration := by
  obtain ⟨hfault, rfl⟩ := config_eq_ok_iff.mp h
  rcases Token.duration_of_mem_ofCells ht with hbase | hrest
  · exact hbase ▸ settings.timing_pos Timing.standard_pos hfault .base
  · exact hrest ▸ settings.timing_pos Timing.standard_pos hfault .rest

/-- The period of a loop is the time that its region takes, in whatever paragraph the
region has come to stand. -/
theorem LoopTimer.Apt.period_eq_total {settings : Settings Rat} {config : Config Rat}
    (h : settings.config = .ok config) {l : LoopTimer Rat} (hl : l.Apt config)
    {p : Paragraph Rat} {r : Region} (hr : r ∈ p.regions config) (hkey : r.key = l.key) :
    l.period = Token.total (p.tokensInside config r) := by
  have hloop : (l.key, p.tokensInside config r) ∈ (Score.ofParagraph config p).loops :=
    List.mem_map.mpr ⟨r, hr, Prod.ext hkey rfl⟩
  have hne : p.tokensInside config r ≠ [] := mt (Score.tokens_eq_nil_iff hloop).mp hl.sounds
  have hpos : 0 < Token.total (p.tokensInside config r) :=
    Token.total_pos hne fun t ht => Settings.duration_pos h ht
  rw [hl.period_eq, ← Score.period_eq hloop, Config.period, if_pos hpos]

/-! ## What time delivers -/

/-- A firing that time delivers, with the document that it finds and its report. -/
structure Delivery (R : Type) where
  document : Document R
  firing : Firing R
  report? : Option (Report R)

variable {R : Type} [Scalar R]

/-- What time delivers in one step of a run. -/
def Step.deliveries (x : Step R) : List (Delivery R) :=
  match x.command with
  | .advance seconds =>
    ((x.before.advanceTo? (x.before.now + seconds)).map Prod.fst).getD []
      |>.map fun (firing, report?) => ⟨x.before.document, firing, report?⟩
  | _ => []

/-- What time delivers of one timer in a run. -/
def Session.deliveries (s : Session R) (handle : Nat) (commands : List (Command R)) :
    List (Delivery R) :=
  ((s.steps commands).flatMap Step.deliveries).filter (·.firing.handle = handle)

/-- A loop is played from a time on for its period, as the document has it then. -/
def Delivery.Repeats (config : Config R) (i : Nat) (l : LoopTimer R) (start : R)
    (d : Delivery R) : Prop :=
  ∃ p, d.document[i]? = some p ∧ ∃ r ∈ p.regions config, r.key = l.key ∧
    l.period = Token.total (p.tokensInside config r) ∧ d.report? = some
      { paragraph := i
        source := .loop l.key
        start
        duration := l.period
        letters := (p.tokensInside config r).flatMap fun t => t.letters.map Letter.index }

namespace Session

/-- A loop runs since `start` and has been repeated `n` times. -/
structure Running (i : Nat) (l : LoopTimer Rat) (start : Rat) (n : Nat) (s : Session Rat) :
    Prop where
  mem_loops : l ∈ s.table.loops i
  find?_eq : s.registry.timers.find? l.handle =
    some ⟨l.handle, l.period, start + (n + 1) * l.period⟩
  le_now : start + n * l.period ≤ s.now

variable {settings : Settings Rat} {config : Config Rat} {s s' : Session Rat} {i : Nat}
  {l : LoopTimer Rat} {start : Rat} {n : Nat}

theorem deliveries_of_advanceTo? {seconds : Rat} {outcome : Outcome Rat}
    {firings : List (Firing Rat)}
    (h : s.advanceTo? (s.now + seconds) = some (firings.map fun f => (f, s.reportOf? f), s')) :
    Step.deliveries ⟨s, .advance seconds, outcome, s'⟩ =
      firings.map fun f => ⟨s.document, f, s.reportOf? f⟩ := by
  simp only [Step.deliveries, h, Option.map_some, Option.getD_some, List.map_map]
  rfl

theorem InOrder.repeats (hs : s.InOrder config) (hconfig : settings.config = .ok config)
    (hl : l ∈ s.table.loops i) (time : Rat) :
    Delivery.Repeats config i l time
      ⟨s.document, ⟨l.handle, time⟩, s.reportOf? ⟨l.handle, time⟩⟩ := by
  obtain ⟨p, hp, r, hr, hkey, -, hreport⟩ := hs.coherent.reportOf?_of_mem hl
  have hapt := hs.coherent.apt hl
  rw [hs.config_eq] at hr hreport hapt
  have htotal := hapt.period_eq_total hconfig hr hkey
  refine ⟨p, hp, r, hr, hkey, htotal, (hreport time).trans ?_⟩
  rw [Report.telling, Token.foldl_duration_sub, ← htotal]

namespace Running

/-- Time repeats a loop some times more, each time one period later. -/
theorem of_drains (h : Running i l start n s) (hs : s.InOrder config) (hs' : s'.Coherent)
    (hl : l ∈ s'.table.loops i) {horizon : Rat} {firings : List (Firing Rat)} {last : Timers Rat}
    (hdrains : Timers.Drains horizon s.registry.timers firings last)
    (htimers : s'.registry.timers = last.advanceTo horizon) :
    ∃ m : Nat, Running i l start (n + m) s' ∧ firings.filter (·.handle = l.handle) =
      (List.range m).map fun k => ⟨l.handle, start + (↑(n + k) + 1) * l.period⟩ := by
  let t : Timer Rat := ⟨l.handle, l.period, start + (n + 1) * l.period⟩
  have hterm (k : Nat) : t.term k = ⟨l.handle, start + (↑(n + k) + 1) * l.period⟩ := by
    have hdue : start + (↑n + 1) * l.period + ↑k * l.period =
        start + (↑(n + k) + 1) * l.period := by
      push_cast
      ring
    exact congrArg (Firing.mk l.handle) hdue
  have ht : t ∈ s.registry.timers.running :=
    (hs.coherent.drives.find?_eq_some_iff.mp h.find?_eq).1
  obtain ⟨m, hterms, hmem⟩ := hdrains.exists_terms hs.advancing ht
  rw [hterm] at hmem
  simp only [funext hterm] at hterms
  refine ⟨m, ⟨hl, ?_, ?_⟩, hterms⟩
  · apply hs'.drives.find?_eq_some_iff.mpr
    rw [htimers]
    exact ⟨hmem, rfl⟩
  · have hnow : s'.now = max s.now horizon := by
      rw [now, htimers]
      exact hdrains.now_advanceTo
    rw [hnow]
    cases m with
    | zero => exact h.le_now.trans (le_max_left _ _)
    | succ m =>
        -- The last repetition begins with a firing, so not behind the horizon.
        have hlast : t.term m ∈ firings.filter (·.handle = l.handle) := by
          rw [hterms, hterm]
          exact List.mem_map.mpr ⟨m, List.mem_range.mpr m.lt_succ_self, rfl⟩
        have hdue := ((hdrains.mem_iff hs.advancing).mp (List.mem_of_mem_filter hlast)).2
        rw [hterm] at hdue
        apply le_max_of_le_right
        rw [← Nat.add_assoc, Nat.cast_succ]
        exact hdue

/-- A step repeats the loops that it leaves running. -/
theorem step (h : Running i l start n s) (hs : s.InOrder config)
    (hconfig : settings.config = .ok config) {c : Command Rat} {outcome : Outcome Rat}
    (hstep : s.step? c = some (outcome, s')) (hl : l ∈ s'.table.loops i) :
    let ds := (Step.deliveries ⟨s, c, outcome, s'⟩).filter (·.firing.handle = l.handle)
    Running i l start (n + ds.length) s' ∧ ∀ (k : Nat) d, ds[k]? = some d →
      d.Repeats config i l (start + (↑(n + k) + 1) * l.period) := by
  intro ds
  have hs' := (hs.step hstep).coherent
  by_cases hc : ∃ seconds, c = .advance seconds
  · obtain ⟨seconds, rfl⟩ := hc
    obtain ⟨firings, last, s'', hdrains, hadvance, hstep', -, htimers⟩ := hs.exists_advance seconds
    obtain ⟨-, rfl⟩ := Prod.mk.inj (Option.some_inj.mp (hstep.symm.trans hstep'))
    obtain ⟨m, hafter, hterms⟩ := h.of_drains hs hs' hl hdrains htimers
    have hds : ds = (firings.filter (·.handle = l.handle)).map fun f =>
        ⟨s.document, f, s.reportOf? f⟩ := by
      simp only [ds, deliveries_of_advanceTo? hadvance, List.filter_map]
      rfl
    rw [hds, hterms, List.length_map, List.length_map, List.length_range]
    refine ⟨hafter, fun k d hd => ?_⟩
    rw [List.map_map, List.getElem?_map] at hd
    obtain ⟨k', hk', rfl⟩ := Option.map_eq_some_iff.mp hd
    obtain ⟨hlt, hk⟩ := List.getElem?_eq_some_iff.mp hk'
    rw [List.getElem_range] at hk
    rw [hk]
    exact hs.repeats hconfig h.mem_loops _
  · rw [not_exists] at hc
    obtain ⟨hregistry, -⟩ := leadsTo_of_step? hc hstep
    have hnothing : ds = [] := by
      cases c with
      | advance seconds => exact absurd rfl (hc seconds)
      | _ => rfl
    obtain ⟨t, hbefore, hafter, -⟩ :=
      hregistry.find?_eq hs.coherent.drives hs'.drives h.mem_loops hl
    rw [hnothing]
    refine ⟨⟨hl, ?_, ?_⟩, fun k d hd => absurd hd (by simp)⟩
    · rw [hafter, ← hbefore]
      exact h.find?_eq
    · exact h.le_now.trans (le_of_eq hregistry.now_eq.symm)

/-- A run repeats the loops that stay.  By induction on the commands: each finds the
loop where the one before it has left it. -/
theorem run (h : Running i l start n s) (hs : s.InOrder config)
    (hconfig : settings.config = .ok config) {commands : List (Command Rat)}
    (hstays : ∀ x ∈ s.steps commands, l ∈ x.after.table.loops i) :
    ∃ outcomes s', s.run? commands = some (outcomes, s') ∧ s'.InOrder config ∧
      Running i l start (n + (s.deliveries l.handle commands).length) s' ∧
      ∀ (k : Nat) d, (s.deliveries l.handle commands)[k]? = some d →
        d.Repeats config i l (start + (↑(n + k) + 1) * l.period) := by
  induction commands generalizing s n with
  | nil => exact ⟨[], s, rfl, hs, h, fun k d hd => absurd hd (by simp [deliveries, steps])⟩
  | cons c commands ih =>
      obtain ⟨outcome, next, hstep⟩ := hs.exists_step? c
      rw [steps_cons_of_step? hstep, List.forall_mem_cons] at hstays
      obtain ⟨hfirst, hrepeats⟩ := h.step hs hconfig hstep hstays.1
      obtain ⟨outcomes, s', hrun, hs', hlast, hrest⟩ := ih hfirst (hs.step hstep) hstays.2
      have hds : s.deliveries l.handle (c :: commands) =
          (Step.deliveries ⟨s, c, outcome, next⟩).filter (·.firing.handle = l.handle) ++
            next.deliveries l.handle commands := by
        rw [deliveries, steps_cons_of_step? hstep, List.flatMap_cons, List.filter_append]
        rfl
      refine ⟨outcome :: outcomes, s', ?_, hs', ?_, fun k d hd => ?_⟩
      · rw [run?_cons_of_step? hstep, hrun]
        rfl
      · rw [hds, List.length_append, ← Nat.add_assoc]
        exact hlast
      · rw [hds] at hd
        rcases Nat.lt_or_ge k ((Step.deliveries ⟨s, c, outcome, next⟩).filter
          (·.firing.handle = l.handle)).length with hk | hk
        · rw [List.getElem?_append_left hk] at hd
          exact hrepeats k d hd
        · rw [List.getElem?_append_right hk] at hd
          have hd' := hrest _ d hd
          rwa [Nat.add_assoc, Nat.add_sub_cancel' hk] at hd'

end Running

theorem running_of_new (hs : s.InOrder config) {c : Command Rat} {outcome : Outcome Rat}
    (hstep : s.step? c = some (outcome, s')) (hnew : l ∉ s.table.loops i)
    (hl : l ∈ s'.table.loops i) : Running i l s'.now 0 s' := by
  have hs' := (hs.step hstep).coherent
  rcases effect?_cases (effect?_of_step? hstep) with
    ⟨document, -, -, rfl⟩ | ⟨hsame, -⟩ | ⟨-, -, rfl⟩
  · let edited : Session Rat := { s with document }
    have hnow : edited.tick.2.now = s.now := (leadsTo_tick edited).now_eq
    have hhandle : s.registry.timers.nextHandle ≤ l.handle :=
      (mem_loops_tick (s := edited) hl).resolve_left hnew
    have hdue := find?_tick_of_new (s := edited) hs.coherent.drives hs'.drives hhandle hl
    refine ⟨hl, ?_, ?_⟩
    · rw [edit, hnow, Nat.cast_zero, zero_add, one_mul]
      exact hdue
    · rw [Nat.cast_zero, zero_mul, add_zero]
  · rw [hsame.table_eq] at hl
    exact absurd hl hnew
  · exact absurd hl List.not_mem_nil

/-- **A loop is repeated without a break.** A loop is started at a time and stays.
Then time delivers its first firing one period later and each further one a period
after the one before.  What is played is the region of the loop, as the document has
it then, and it lasts one period, so it ends when the next repetition begins. -/
theorem loop_repeats_seamlessly (hconfig : settings.config = .ok config) (hs : Reachable config s)
    {c : Command Rat} {outcome : Outcome Rat} (hstep : s.step? c = some (outcome, s'))
    (hnew : l ∉ s.table.loops i) (hl : l ∈ s'.table.loops i) {commands : List (Command Rat)}
    (hstays : ∀ x ∈ s'.steps commands, l ∈ x.after.table.loops i) :
    let ds := s'.deliveries l.handle commands
    (∀ (k : Nat) d, ds[k]? = some d → d.Repeats config i l (s'.now + (k + 1) * l.period)) ∧
    (∀ (k : Nat) d d', ds[k]? = some d → ds[k + 1]? = some d' → ∃ report report',
      d.report? = some report ∧ d'.report? = some report' ∧
        report.start + report.duration = report'.start) ∧
    ∃ outcomes last, s'.run? commands = some (outcomes, last) ∧
      s'.now + ds.length * l.period ≤ last.now ∧
      last.now < s'.now + (ds.length + 1) * l.period := by
  intro ds
  have hbefore := InOrder.of_reachable hconfig hs
  have hstart := running_of_new hbefore hstep hnew hl
  obtain ⟨outcomes, last, hrun, hlast, hrunning, hrepeats⟩ :=
    hstart.run (hbefore.step hstep) hconfig hstays
  simp only [Nat.zero_add] at hrunning hrepeats
  refine ⟨hrepeats, fun k d d' hd hd' => ?_, outcomes, last, hrun, hrunning.le_now, ?_⟩
  · obtain ⟨p, -, r, -, -, -, hreport⟩ := hrepeats k d hd
    obtain ⟨p', -, r', -, -, -, hreport'⟩ := hrepeats (k + 1) d' hd'
    refine ⟨_, _, hreport, hreport', ?_⟩
    push_cast
    ring
  · have hmem := (hlast.coherent.drives.find?_eq_some_iff.mp hrunning.find?_eq).1
    exact hlast.onTime.now_lt _ hmem

/-- A loop moves behind another one between its first and its second repetition. -/
theorem moved_loop_repeats_seamlessly :
    let settings : Settings Rat := {}
    let s₀ := new settings.fill (.ofSeed 0) (.ofSeed 1)
    let s := (s₀.edit (Document.ofText "[a b].".toList)).2
    let l : LoopTimer Rat := ⟨⟨"a b".toList, 0⟩, 0, 68 / 100⟩
    let commands := [.advance 1, .edit (Document.ofText "c [d] [a b].".toList), .advance 1]
    settings.config = .ok settings.fill ∧ l ∈ s.table.loops 0 ∧
      (s.deliveries l.handle commands).map (fun d => d.report?.map Report.letters) =
        [some [0, 1], some [2, 3]] ∧
      ∀ (k : Nat) d, (s.deliveries l.handle commands)[k]? = some d →
        d.Repeats settings.fill 0 l (s.now + (k + 1) * (68 / 100)) := by
  intro settings s₀ s l commands
  have hconfig : settings.config = .ok settings.fill := Settings.config_empty_exact
  have hs : Reachable settings.fill s₀ := ⟨_, _, [], [], rfl⟩
  have hstep := step?_edit (s := s₀) (by decide +kernel) (Document.ofText "[a b].".toList)
  have hnew : l ∉ s₀.table.loops 0 := List.not_mem_nil
  have hl : l ∈ s.table.loops 0 := by decide +kernel
  have hstays : ∀ x ∈ s.steps commands, l ∈ x.after.table.loops 0 := by decide +kernel
  have hletters : (s.deliveries l.handle commands).map (fun d => d.report?.map Report.letters) =
      [some [0, 1], some [2, 3]] := by decide +kernel
  exact ⟨hconfig, hl, hletters,
    (loop_repeats_seamlessly hconfig hs hstep hnew hl hstays).1⟩

end Session
end ProseScore
