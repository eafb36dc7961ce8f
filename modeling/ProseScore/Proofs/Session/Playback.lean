import ProseScore.Proofs.Session.Reports
import ProseScore.Proofs.Timer.Schedule

/-!
# What time plays

In exact time both clocks tell the same in every session that comes of commands,
and every timer is due later than they tell.  So whenever time goes on, each
firing of the schedule is played when it is due.
-/

namespace ProseScore

theorem Timing.standard_pos (t : Timing) : 0 < (standard t : Rat) := by
  cases t <;> decide +kernel

namespace Session

theorem Coherent.advancing {s : Session Rat} (hs : s.Coherent) (h : 0 < s.config.fallbackPeriod) :
    s.registry.timers.Advancing :=
  ⟨hs.drives.increasing, fun _ ht => hs.period_pos h ht⟩

/-! ## Both clocks -/

/-- The clocks agree, and no timer is due. -/
structure OnTime (s : Session Rat) : Prop where
  recorder_now_eq : s.recorder.now = s.now
  now_lt : ∀ t ∈ s.registry.timers.running, s.now < t.nextDue

theorem onTime_new (config : Config Rat) (drawn drawnLive : Generator) :
    (new config drawn drawnLive).OnTime :=
  ⟨rfl, fun _ ht => absurd ht List.not_mem_nil⟩

theorem OnTime.of_leadsTo {s s' : Session Rat} (h : s.OnTime)
    (hregistry : s.registry.LeadsTo s'.registry) (hs' : s'.registry.timers.Advancing)
    (hrecorder : s'.recorder.now = s.recorder.now) : s'.OnTime where
  recorder_now_eq := by rw [hrecorder, h.recorder_now_eq, now, now, hregistry.now_eq]
  now_lt := by
    intro t ht
    rw [now, hregistry.now_eq]
    rcases hregistry.running t ht with hold | ⟨-, hdue⟩
    · exact h.now_lt t hold
    · -- A new timer is not due at once.
      rw [hdue]
      exact lt_add_of_pos_right _ (hs'.period_pos t ht)

/-- Firings up to a horizon and the horizon itself move the clock as far as the
horizon alone does. -/
theorem recorder_now_deliver {s : Session Rat} {firings : List (Firing Rat)} {horizon : Rat}
    (h : ∀ f ∈ firings, f.due ≤ horizon) :
    ((s.deliver firings).2.recorder.advanceTo horizon).now = max s.recorder.now horizon := by
  induction firings generalizing s with
  | nil => exact Recorder.now_advanceTo _ horizon
  | cons f firings ih =>
      obtain ⟨hf, hfirings⟩ := List.forall_mem_cons.mp h
      rw [deliver]
      simp only
      rw [ih hfirings, recorder_now_timerFired, Recorder.now_advanceTo, max_assoc, max_eq_right hf]

theorem OnTime.of_drains {s s' : Session Rat} (h : s.OnTime) (hs : s.registry.timers.Advancing)
    {horizon : Rat} {firings : List (Firing Rat)} {last : Timers Rat}
    (hdrains : Timers.Drains horizon s.registry.timers firings last)
    (htimers : s'.registry.timers = last.advanceTo horizon)
    (hrecorder : s'.recorder = (s.deliver firings).2.recorder.advanceTo horizon) :
    s'.OnTime where
  recorder_now_eq := by
    have hdue : ∀ f ∈ firings, f.due ≤ horizon := fun f hf => ((hdrains.mem_iff hs).mp hf).2
    rw [hrecorder, recorder_now_deliver hdue, now, htimers, hdrains.now_advanceTo,
      h.recorder_now_eq, now]
  now_lt := by
    intro t ht
    rw [htimers] at ht
    obtain ⟨u, hu, hhandle, -⟩ := hdrains.sameTimers.exists_timer ht
    obtain ⟨n, hmem, hgt, -⟩ := hdrains.exists_term_gt hs hu
    obtain rfl := Timers.eq_of_handle_eq (hs.of_sameTimers hdrains.sameTimers).nodup hmem ht hhandle
    rw [now, htimers, hdrains.now_advanceTo]
    exact max_lt ((h.now_lt u hu).trans_le (Timer.nextDue_le_term (hs.period_pos u hu) n)) hgt

theorem OnTime.step {s s' : Session Rat} (h : s.OnTime) (hs : s.Coherent)
    (hpos : 0 < s.config.fallbackPeriod) {c : Command Rat} {outcome : Outcome Rat}
    (hstep : s.step? c = some (outcome, s')) : s'.OnTime := by
  obtain ⟨hconfig, hafter⟩ := hs.step hstep
  rcases step?_clocks hstep with ⟨hregistry, hrecorder⟩ | ⟨horizon, firings, last, hdrains, hs'⟩
  · exact h.of_leadsTo hregistry (hafter.advancing (hconfig ▸ hpos)) hrecorder
  · exact h.of_drains (hs.advancing hpos) hdrains hs'.1 hs'.2

theorem Reachable.onTime {config : Config Rat} (hpos : 0 < config.fallbackPeriod)
    {s : Session Rat} (h : Reachable config s) : s.OnTime := by
  refine h.of_step (onTime_new config) fun s s' c outcome hs htime hstep => ?_
  obtain ⟨rfl, hcoherent⟩ := hs.config_and_coherent
  exact htime.step hcoherent hpos hstep

/-! ## What time brings -/

/-- The report of a firing tells when it was due and names the loop of its
handle. -/
structure PlaysFiring {R : Type} (s : Session R) (f : Firing R) (report : Report R) : Prop where
  start_eq : report.start = f.due
  source_eq : ∃ l ∈ s.table.loops report.paragraph, l.handle = f.handle ∧
    report.source = .loop l.key

theorem forall₂_deliver {s : Session Rat} (hs : s.Coherent) {firings : List (Firing Rat)}
    (hsorted : firings.Pairwise fun f g => f.due ≤ g.due)
    (hnow : ∀ f ∈ firings, s.recorder.now ≤ f.due)
    (hloops : ∀ f ∈ firings, ∃ i, ∃ l ∈ s.table.loops i, l.handle = f.handle) :
    List.Forall₂ s.PlaysFiring firings ((s.deliver firings).1.filterMap Prod.snd) := by
  rw [reports_deliver hsorted hnow]
  clear hsorted hnow
  induction firings with
  | nil => exact List.Forall₂.nil
  | cons f firings ih =>
      obtain ⟨⟨i, l, hl, hhandle⟩, hloops⟩ := List.forall_mem_cons.mp hloops
      obtain ⟨p, -, r, -, -, -, hreport⟩ := hs.reportOf?_of_mem hl
      have hf : s.reportOf? f =
          some (.telling i (.loop l.key) f.due (p.tokensInside s.config r)) := by
        rw [← hreport, hhandle]
      rw [List.filterMap_cons_some hf]
      exact List.Forall₂.cons ⟨rfl, l, hl, hhandle, rfl⟩ (ih hloops)

section Drain

variable {s : Session Rat} (hs : s.registry.timers.Advancing) {horizon : Rat}
  {firings : List (Firing Rat)} {last : Timers Rat}
  (hdrains : Timers.Drains horizon s.registry.timers firings last)

include hs hdrains

theorem pairwise_due : firings.Pairwise fun f g => f.due ≤ g.due :=
  (hdrains.pairwise hs).imp fun hlt =>
    (Firing.key_lt_key_iff.mp hlt).elim le_of_lt fun heq => heq.1.le

theorem OnTime.now_le_due (h : s.OnTime) : ∀ f ∈ firings, s.recorder.now ≤ f.due := by
  intro f hf
  obtain ⟨⟨t, ht, k, rfl⟩, -⟩ := (hdrains.mem_iff hs).mp hf
  rw [h.recorder_now_eq]
  exact (h.now_lt t ht).le.trans (Timer.nextDue_le_term (hs.period_pos t ht) k)

end Drain

/-- **Time brings the whole schedule.** Under accepted settings, time that goes on
comes to an end and reports, one by one, every firing that any timer has ahead up
to the horizon: in the order of the due times and, within a time, of the handles,
each with its due time and its loop.  Both clocks come to the horizon, each timer
to its first term beyond, and what runs stays as it is. -/
theorem advance_plays_schedule {settings : Settings Rat} {config : Config Rat}
    (hconfig : settings.config = .ok config) {s : Session Rat} (hs : Reachable config s)
    {seconds : Rat} (hseconds : 0 ≤ seconds) :
    let horizon := s.now + seconds
    ∃ reports s' firings, s.advance? seconds = some (reports, s') ∧
      (∀ f, f ∈ firings ↔
        (∃ t ∈ s.registry.timers.running, ∃ k : Nat,
          f = ⟨t.handle, t.nextDue + k * t.period⟩) ∧ f.due ≤ horizon) ∧
      (firings.Pairwise fun f g => f.due < g.due ∨ f.due = g.due ∧ f.handle < g.handle) ∧
      List.Forall₂ s.PlaysFiring firings reports ∧
      s'.now = horizon ∧ s'.recorder.now = horizon ∧
      (∀ t ∈ s.registry.timers.running, ∃ n : Nat,
        { t with nextDue := t.nextDue + n * t.period } ∈ s'.registry.timers.running ∧
        horizon < t.nextDue + n * t.period ∧ ∀ k < n, t.nextDue + k * t.period ≤ horizon) ∧
      s.registry.timers.SameTimers s'.registry.timers ∧ s.Continues s' := by
  intro horizon
  have hpos := Settings.fallbackPeriod_pos Timing.standard_pos hconfig
  have hcoherent := hs.attainable.coherent
  have htime := hs.onTime hpos
  have hadvancing : s.registry.timers.Advancing :=
    hcoherent.advancing (hs.attainable.config_and_coherent.1 ▸ hpos)
  have hle : s.now ≤ horizon := le_add_of_nonneg_right hseconds
  obtain ⟨firings, timers, hdrain⟩ := hadvancing.exists_drain? horizon
  have hadvance := advance?_of_drain? hdrain
  obtain ⟨last, hdrains, rfl⟩ := Timers.drain?_eq_some hdrain
  have hclock : (last.advanceTo horizon).now = horizon :=
    hdrains.now_advanceTo.trans (max_eq_right hle)
  have hsame := s.sameLoops_deliver firings
  refine ⟨_, _, firings, hadvance, fun f => hdrains.mem_iff hadvancing, ?_, ?_, hclock, ?_, ?_, ?_,
    ⟨hsame.config_eq, hsame.document_eq, hsame.table_eq, rfl⟩⟩
  · exact (hdrains.pairwise hadvancing).imp Firing.key_lt_key_iff.mp
  · apply forall₂_deliver hcoherent (pairwise_due hadvancing hdrains)
      (htime.now_le_due hadvancing hdrains)
    intro f hf
    obtain ⟨⟨t, ht, k, rfl⟩, -⟩ := (hdrains.mem_iff hadvancing).mp hf
    exact hcoherent.drives.mem_handles_iff.mp (List.mem_map_of_mem ht)
  · exact (htime.of_drains hadvancing hdrains rfl rfl).recorder_now_eq.trans hclock
  · exact fun t ht => hdrains.exists_term_gt hadvancing ht
  · exact hdrains.sameTimers.trans (Timers.SameTimers.advanceTo last horizon)

/-- Two loops, and a time at which both are due. -/
theorem advance_plays_interleaved_loops :
    let settings : Settings Rat := {}
    let s := ofEdits settings.fill [Document.ofText "[a] [b c].".toList]
    settings.config = .ok settings.fill ∧ Reachable settings.fill s ∧
      ∃ reports s' firings, s.advance? 1 = some (reports, s') ∧
        List.Forall₂ s.PlaysFiring firings reports ∧
        (reports.map fun r => (r.start, r.letters)) =
          [(34 / 100, [0]), (68 / 100, [0]), (68 / 100, [1, 2])] ∧
        s'.recorder.now = s.now + 1 := by
  intro settings s
  have hconfig : settings.config = .ok settings.fill := Settings.config_empty_exact
  have hs : Reachable settings.fill s := reachable_ofEdits (by decide +kernel) _
  have hseconds : (0 : Rat) ≤ 1 := by decide
  obtain ⟨reports, s', firings, hadvance, -, -, hplays, -, hclock, -⟩ :=
    advance_plays_schedule hconfig hs hseconds
  have hreports : (s.advance? 1).map (fun r => r.1.map fun r => (r.start, r.letters)) =
      some [(34 / 100, [0]), (68 / 100, [0]), (68 / 100, [1, 2])] := by decide +kernel
  rw [hadvance] at hreports
  exact ⟨hconfig, hs, reports, s', firings, hadvance, hplays, Option.some_inj.mp hreports, hclock⟩

end Session

end ProseScore
