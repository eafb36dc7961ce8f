import ProseScore.Proofs.Session.Openings

/-!
# Sessions at rest

A tick leaves a table in which nothing is to be done: every paragraph that asks
to be played is active, and its loops are those that its score demands.  Sounds
and the passing of time do not change that, so until everything is stopped a
further tick finds nothing to start, to stop or to play.
-/

namespace ProseScore

variable {R : Type} [Scalar R]

theorem Score.mem_keys_of_mem_demands {config : Config R} {score : Score R} {key : RegionKey}
    {period : R} (h : (key, period) ∈ score.demands config) : key ∈ score.keys := by
  obtain ⟨⟨key', tokens⟩, hmem, heq⟩ := List.mem_map.mp h
  obtain ⟨rfl, -⟩ := Prod.mk.inj heq
  exact List.mem_map_of_mem (List.mem_of_mem_filter hmem)

/-! ## Tables that nothing changes -/

namespace Activity

variable {config : Config R} {score : Score R} {loops : List (LoopTimer R)}
  (hdemands : (loops.map fun l => (l.key, l.period)).Perm (score.demands config))

include hdemands

theorem kept_eq_loops : (active loops).kept score = loops := by
  apply List.filter_eq_self.mpr
  intro l hl
  have hdemand := hdemands.mem_iff.mp (List.mem_map_of_mem hl)
  exact List.contains_iff_mem.mpr (Score.mem_keys_of_mem_demands hdemand)

theorem gone_eq_nil : (active loops).gone score = [] := by
  apply List.filter_eq_nil_iff.mpr
  intro l hl
  have hdemand := hdemands.mem_iff.mp (List.mem_map_of_mem hl)
  simpa using Score.mem_keys_of_mem_demands hdemand

theorem fresh_eq_nil : (active loops).fresh score = [] := by
  apply List.filter_eq_nil_iff.mpr
  rintro ⟨key, tokens⟩ hmem hfresh
  rw [kept_eq_loops hdemands, Bool.and_eq_true, Bool.not_eq_true', Bool.not_eq_true',
    List.any_eq_false] at hfresh
  obtain ⟨hne, hnot⟩ := hfresh
  -- A loop with tokens is demanded, so it runs already.
  have hdemand : (key, config.period tokens) ∈ score.demands config :=
    List.mem_map.mpr ⟨_, List.mem_filter.mpr ⟨hmem, by simpa using hne⟩, rfl⟩
  obtain ⟨l, hl, heq⟩ := List.mem_map.mp (hdemands.mem_iff.mpr hdemand)
  exact hnot l hl (decide_eq_true (Prod.mk.inj heq).1)

end Activity

theorem Activity.follow_eq_self {config : Config R} {score? : Option (Score R)} {a : Activity R}
    (hfits : a.Fits config score?) (hactive : score?.isSome = true → a.isActive = true) (i : Nat)
    (r : Registry R) : a.follow config i score? r = (a, r) := by
  cases a with
  | idle =>
      cases score? with
      | none => rfl
      | some score => exact absurd (hactive rfl) (by simp [isActive])
  | active loops =>
      obtain ⟨score, rfl, hdemands⟩ := hfits
      rw [follow_some, armed, kept_eq_loops hdemands, gone_eq_nil hdemands,
        fresh_eq_nil hdemands, Registry.armLoops, List.append_nil]
      rfl

theorem LoopTable.follow_eq_self {config : Config R} {scores : List (Option (Score R))}
    {table : LoopTable R} (hlength : table.length = scores.length)
    (hfits : ∀ j score?, scores[j]? = some score? → (table.state j).Fits config score? ∧
      (score?.isSome = true → (table.state j).isActive = true)) (i : Nat) (r : Registry R) :
    follow config i scores table r = (table, r) := by
  induction scores generalizing i table with
  | nil =>
      obtain rfl := List.length_eq_zero_iff.mp hlength
      rfl
  | cons score? scores ih =>
      obtain ⟨a, table, rfl⟩ := List.exists_cons_of_length_eq_add_one hlength
      obtain ⟨hfirst, hactive⟩ := hfits 0 score? rfl
      have hrest := ih (Nat.succ_inj.mp hlength) (fun j => hfits (j + 1)) (i + 1)
      have hhead : (LoopTable.state (a :: table) 0).follow config i score? r = (a, r) :=
        Activity.follow_eq_self hfirst hactive i r
      rw [follow, hhead]
      simp only [List.tail_cons, hrest]

namespace Session

/-- A session in order whose table has an entry for each paragraph, an active one
if the paragraph asks to be played. -/
structure Settled (s : Session R) : Prop where
  coherent : s.Coherent
  length_eq : s.table.length = s.document.length
  active : ∀ i, (s.score? i).isSome = true → (s.table.state i).isActive = true

theorem Settled.tick_eq {s : Session R} (h : s.Settled) : s.tick = ([], s) := by
  have hbodies : s.table.openings 0 s.scores = [] := by
    rw [List.eq_nil_iff_forall_not_mem]
    rintro ⟨i, tokens⟩ hmem
    obtain ⟨p, hp, hidle, hwants, -⟩ := mem_openings_iff.mp hmem
    have hscore := score?_eq_some_iff.mpr ⟨p, hp, hwants, rfl⟩
    have hactive := h.active i (Option.isSome_of_eq_some hscore)
    exact absurd (hidle.symm.trans hactive) Bool.false_ne_true
  have hfollow : s.table.follow s.config 0 s.scores s.registry = (s.table, s.registry) := by
    apply LoopTable.follow_eq_self
    · rw [scores, List.length_map, h.length_eq]
    · intro i found hscore
      have hsame : s.score? i = found := by
        rw [getElem?_scores, Option.map_eq_some_iff] at hscore
        obtain ⟨p, hp, hactive⟩ := hscore
        rw [score?, hp, Option.bind_some, hactive]
      exact ⟨hsame ▸ h.coherent.fits i, hsame ▸ h.active i⟩
  rw [tick, hbodies, hfollow]
  rfl

/-! ## What keeps a session at rest -/

theorem settled_tick {s : Session R} (hafter : s.tick.2.Coherent) : s.tick.2.Settled where
  coherent := hafter
  length_eq := by rw [table_tick, LoopTable.length_follow, document_tick, scores, List.length_map]
  active := by
    intro i hscore
    have hsame : s.tick.2.score? i = s.score? i := by
      rw [score?, score?, config_tick, document_tick]
    rw [hsame, Option.isSome_iff_exists] at hscore
    exact (isActive_tick_iff s i).mpr hscore

theorem Settled.of_continues {s s' : Session R} (h : s.Settled) (hsame : s.Continues s')
    (hcoherent : s'.Coherent) : s'.Settled where
  coherent := hcoherent
  length_eq := by rw [hsame.table_eq, hsame.document_eq, h.length_eq]
  active := by
    intro i hscore
    rw [score?, hsame.config_eq, hsame.document_eq] at hscore
    rw [hsame.table_eq]
    exact h.active i hscore

/-- No command but a stop takes a session out of its rest. -/
theorem Settled.step {s s' : Session R} (hs : s.Settled) {c : Command R} {outcome : Outcome R}
    (hc : c ≠ .stopAll) (h : s.step? c = some (outcome, s')) : s'.Settled := by
  have hcoherent := (hs.coherent.step h).2
  rcases effect?_cases (effect?_of_step? h) with ⟨document, -, -, rfl⟩ | ⟨hsame, -⟩ | ⟨rfl, -, -⟩
  · exact settled_tick hcoherent
  · exact hs.of_continues hsame hcoherent
  · exact absurd rfl hc

/-- The sessions in which an edit or a tick has happened and nothing has been
stopped since.  The recorder and the generators may have been exchanged for any
others. -/
inductive Ticked (config : Config R) : Session R → Prop
  | edit {s : Session R} (document : Document R) :
      Attainable config s → Ticked config (s.edit document).2
  | tick {s : Session R} : Attainable config s → Ticked config s.tick.2
  | step {s s' : Session R} {c : Command R} {outcome : Outcome R} :
      Ticked config s → c ≠ .stopAll → s.step? c = some (outcome, s') → Ticked config s'
  | exchange {s : Session R} (recorder : Recorder R) (generator liveGenerator : Generator) :
      Ticked config s → Ticked config { s with recorder, generator, liveGenerator }

theorem Ticked.settled {config : Config R} {s : Session R} (h : Ticked config s) : s.Settled := by
  induction h with
  | edit document hs => exact settled_tick (hs.coherent.edit document)
  | tick hs => exact settled_tick hs.coherent.tick
  | step _ hc hstep ih => exact ih.step hc hstep
  | exchange recorder generator liveGenerator _ ih =>
      exact ih.of_continues ⟨rfl, rfl, rfl, rfl⟩ ⟨ih.coherent.drives, ih.coherent.fits⟩

theorem Ticked.of_run? {config : Config R} {s s' : Session R} (h : Ticked config s)
    {commands : List (Command R)} (hcommands : ∀ c ∈ commands, c ≠ .stopAll)
    {outcomes : List (Outcome R)} (hrun : s.run? commands = some (outcomes, s')) :
    Ticked config s' := by
  induction commands generalizing s outcomes with
  | nil =>
      obtain ⟨-, rfl⟩ := Prod.mk.inj (Option.some_inj.mp hrun)
      exact h
  | cons c commands ih =>
      obtain ⟨outcome, next, rest, hstep, hrest, -⟩ := run?_cons_eq_some hrun
      exact ih (h.step (hcommands c List.mem_cons_self) hstep)
        (fun c' hc' => hcommands c' (List.mem_cons_of_mem c hc')) hrest

/-- **A further tick does nothing.** Once an edit or a tick has happened, and as
long as nothing is stopped, a tick reports nothing and leaves the whole session as
it is. -/
theorem tick_eq_self {config : Config R} {s : Session R} (h : Ticked config s) :
    s.tick = ([], s) :=
  h.settled.tick_eq

/-- Loops have played in the meantime, and one region has nothing to play. -/
theorem tick_eq_self_after_firings :
    let s := ofEdits (Config.standard : Config Rat) [Document.ofText "[a] b [a] [].".toList]
    ∃ outcomes s', s.run? [.advance 1, .timerFired 0] = some (outcomes, s') ∧
      Ticked Config.standard s' ∧ outcomes.map (fun o => o.toReports.length) = [4, 1] ∧
      s'.tick = ([], s') := by
  intro s
  have hs : Ticked Config.standard s := Ticked.edit _ Attainable.new
  have hcounts : (s.run? [.advance 1, .timerFired 0]).map
      (fun r => r.1.map fun o => o.toReports.length) = some [4, 1] := by decide +kernel
  obtain ⟨⟨outcomes, s'⟩, hrun, hreports⟩ := Option.map_eq_some_iff.mp hcounts
  have hs' := hs.of_run? (by simp) hrun
  exact ⟨outcomes, s', hrun, hs', hreports, tick_eq_self hs'⟩

end Session
end ProseScore
