import ProseScore.Proofs.Region.Order
import ProseScore.Proofs.Session.Attainable
import ProseScore.Scalar.Exact

/-!
# Loops that run on

An edit does not restart the loops that it does not concern.  A loop whose key is
still there keeps its place, its handle and the time when it is due next; one
whose key is gone is stopped; and what is new is started behind the others.
-/

namespace ProseScore

variable {R : Type} [Scalar R]

omit [Scalar R] in
theorem Paragraph.increasing_regions (config : Config R) (p : Paragraph R) :
    (p.regions config).Pairwise fun r r' => r.left < r'.left := by
  have hinc := Cell.increasing_positions_number (p.glyphs config.baseSize)
  refine (Region.pairwise_ofCells hinc).imp_of_mem fun {r r'} hr _ hlt => ?_
  exact Nat.lt_trans (Region.left_lt_right hinc hr) hlt

/-- How the loops of a paragraph and their timers come over to a new text of the
paragraph, when the loops in `armed` are started. -/
structure CarriesOver (config : Config R) (p : Paragraph R) (timers timers' : Timers R)
    (loops loops' armed : List (LoopTimer R)) : Prop where
  loops_eq : loops' = (loops.filter fun l => l.key ∈ (p.regions config).map Region.key) ++ armed
  find?_kept : ∀ l ∈ loops, l.key ∈ (p.regions config).map Region.key →
    ∃ t, timers.find? l.handle = some t ∧ timers'.find? l.handle = some t ∧ t.period = l.period
  find?_gone : ∀ l ∈ loops, l.key ∉ (p.regions config).map Region.key →
    (timers.find? l.handle).isSome = true ∧ timers'.find? l.handle = none
  armed_eq : armed.map (fun l => (l.key, l.period)) =
    ((p.regions config).filter fun r =>
      p.tokensInside config r ≠ [] ∧ r.key ∉ loops.map LoopTimer.key).map fun r =>
        (r.key, config.period (p.tokensInside config r))
  textual : (p.regions config).Pairwise fun r r' => r.left < r'.left
  increasing_armed : (armed.map LoopTimer.handle).Pairwise (· < ·)
  find?_armed : ∀ l ∈ armed, timers.nextHandle ≤ l.handle ∧
    timers'.find? l.handle = some ⟨l.handle, l.period, timers.now + l.period⟩

omit [Scalar R] in
theorem Activity.map_fresh_ofParagraph {β : Type} (config : Config R) (p : Paragraph R)
    (a : Activity R) (f : RegionKey × List (Token R) → β) :
    (a.fresh (Score.ofParagraph config p)).map f =
      ((p.regions config).filter fun r =>
        p.tokensInside config r ≠ [] ∧ r.key ∉ a.loops.map LoopTimer.key).map fun r =>
          f (r.key, p.tokensInside config r) := by
  rw [fresh, Score.loops_ofParagraph, List.filter_map, List.map_map]
  have hfilter : ∀ r ∈ p.regions config,
      (!(p.tokensInside config r).isEmpty &&
        !(a.kept (Score.ofParagraph config p)).any (·.key = r.key)) =
      decide (p.tokensInside config r ≠ [] ∧ r.key ∉ a.loops.map LoopTimer.key) := by
    intro r hr
    have hkey : r.key ∈ (Score.ofParagraph config p).keys := by
      rw [Score.ofParagraph, Score.keys_ofCells]
      exact List.mem_map_of_mem hr
    have hrunning : (a.kept (Score.ofParagraph config p)).any (·.key = r.key) =
        decide (r.key ∈ a.loops.map LoopTimer.key) := by
      rw [Bool.eq_iff_iff, List.any_eq_true, decide_eq_true_iff, List.mem_map]
      apply exists_congr
      intro l
      rw [Activity.mem_kept_iff, decide_eq_true_iff]
      constructor
      · rintro ⟨⟨hl, -⟩, heq⟩
        exact ⟨hl, heq⟩
      · rintro ⟨hl, heq⟩
        exact ⟨⟨hl, heq ▸ hkey⟩, heq⟩
    rw [hrunning, Bool.eq_iff_iff, Bool.and_eq_true, Bool.not_eq_true', Bool.not_eq_true',
      List.isEmpty_eq_false_iff, decide_eq_false_iff_not, decide_eq_true_iff]
  exact congrArg (List.map _) (List.filter_congr hfilter)

/-- Where the texts of the regions are the same ones, in whatever order, all that
runs comes over and nothing is started. -/
theorem CarriesOver.loops_eq_of_perm {config : Config R} {p q : Paragraph R}
    {timers timers' : Timers R} {loops loops' armed : List (LoopTimer R)}
    (h : CarriesOver config p timers timers' loops loops' armed)
    (hdemands : (loops.map fun l => (l.key, l.period)).Perm
      ((Score.ofParagraph config q).demands config))
    (hperm : ((q.regions config).map (q.textInside config)).Perm
      ((p.regions config).map (p.textInside config))) :
    loops' = loops ∧ ∀ l ∈ loops, timers'.find? l.handle = timers.find? l.handle := by
  have hkeys : ∀ key, key ∈ (q.regions config).map Region.key ↔
      key ∈ (p.regions config).map Region.key := by
    rw [← Paragraph.map_content_regions, ← Paragraph.map_content_regions] at hperm
    exact Region.mem_keys_congr hperm
  have hkept : ∀ l ∈ loops, l.key ∈ (p.regions config).map Region.key := by
    intro l hl
    have hdemand := hdemands.mem_iff.mp (List.mem_map_of_mem hl)
    obtain ⟨r, hr, -, hkey, -⟩ := Score.mem_demands_iff_region.mp hdemand
    exact (hkeys l.key).mp (hkey ▸ List.mem_map_of_mem hr)
  have hnothing : ((p.regions config).filter fun r =>
      p.tokensInside config r ≠ [] ∧ r.key ∉ loops.map LoopTimer.key) = [] := by
    apply List.filter_eq_nil_iff.mpr
    intro r hr hdecide
    obtain ⟨hne, hnot⟩ := of_decide_eq_true hdecide
    -- The old text has a region with this key too, and its loop runs already.
    obtain ⟨-, hsounds, -⟩ := Score.mem_demands_iff.mp
      (Score.mem_demands_iff_region.mpr ⟨r, hr, hne, rfl, rfl⟩)
    have hold := (hkeys r.key).mpr (List.mem_map_of_mem hr)
    have hdemand : (r.key, config.period (Token.ofText config r.key.content)) ∈
        (Score.ofParagraph config q).demands config :=
      Score.mem_demands_iff.mpr ⟨by rwa [Score.keys_ofCells], hsounds, rfl⟩
    obtain ⟨l, hl, heq⟩ := List.mem_map.mp (hdemands.mem_iff.mpr hdemand)
    exact hnot (List.mem_map.mpr ⟨l, hl, (Prod.mk.inj heq).1⟩)
  have harmed : armed = [] := by
    have hempty := h.armed_eq
    rw [hnothing, List.map_nil] at hempty
    exact List.map_eq_nil_iff.mp hempty
  constructor
  · rw [h.loops_eq, harmed, List.append_nil]
    apply List.filter_eq_self.mpr
    intro l hl
    exact decide_eq_true (hkept l hl)
  · intro l hl
    obtain ⟨t, ht, ht', -⟩ := h.find?_kept l hl (hkept l hl)
    exact ht'.trans ht.symm

/-- A loop that runs before and after a change of the registry keeps its timer. -/
theorem Registry.LeadsTo.find?_eq {r later : Registry R} (h : r.LeadsTo later)
    {loops loops' : Nat → List (LoopTimer R)} (hr : r.Drives loops) (hlater : later.Drives loops')
    {i j : Nat} {l : LoopTimer R} (hl : l ∈ loops i) (hl' : l ∈ loops' j) :
    ∃ t, r.timers.find? l.handle = some t ∧ later.timers.find? l.handle = some t ∧
      t.period = l.period := by
  obtain ⟨t, ht, hhandle, hperiod⟩ := hlater.exists_timer hl'
  have hold : t ∈ r.timers.running := by
    rcases h.running t ht with hold | ⟨hnew, -⟩
    · exact hold
    · exact absurd (hr.handle_lt hl) (Nat.not_lt.mpr (hhandle ▸ hnew))
  exact ⟨t, hr.find?_eq_some_iff.mpr ⟨hold, hhandle⟩, hlater.find?_eq_some_iff.mpr ⟨ht, hhandle⟩,
    hperiod⟩

namespace Session

/-! ## Timers through a tick -/

theorem leadsTo_tick (s : Session R) : s.registry.LeadsTo s.tick.2.registry := by
  rw [registry_tick]
  exact LoopTable.leadsTo_follow s.config 0 s.scores s.table s.registry

/-- A loop that runs after a tick has run before or has a handle that no timer had
before. -/
theorem mem_loops_tick {s : Session R} {i : Nat} {l : LoopTimer R}
    (hl : l ∈ s.tick.2.table.loops i) :
    l ∈ s.table.loops i ∨ s.registry.timers.nextHandle ≤ l.handle := by
  rw [LoopTable.loops] at hl
  cases h : s.score? i with
  | none =>
      rw [state_tick_of_none h] at hl
      exact absurd hl List.not_mem_nil
  | some score =>
      obtain ⟨armed, hstate, -, hhandle⟩ := state_tick_of_some h
      rw [hstate] at hl
      rcases List.mem_append.mp hl with hl | hl
      · exact Or.inl (Activity.mem_kept_iff.mp hl).1
      · exact Or.inr (hhandle l hl)

section

variable {s : Session R} (hdrives : s.registry.Drives s.table.loops)
  (hafter : s.tick.2.registry.Drives s.tick.2.table.loops) {i : Nat} {l : LoopTimer R}

include hdrives hafter

theorem find?_tick_of_gone (hl : l ∈ s.table.loops i) (hl' : l ∉ s.tick.2.table.loops i) :
    s.tick.2.registry.timers.find? l.handle = none := by
  rw [← Option.not_isSome_iff_eq_none, hafter.isSome_find?_iff]
  rintro ⟨j, other, hother, hhandle⟩
  rcases mem_loops_tick hother with hold | hnew
  · obtain ⟨rfl, rfl⟩ := hdrives.eq_of_handle_eq hold hl hhandle
    exact hl' hother
  · exact absurd (hdrives.handle_lt hl) (Nat.not_lt.mpr (hhandle ▸ hnew))

theorem find?_tick_of_new (hnew : s.registry.timers.nextHandle ≤ l.handle)
    (hl' : l ∈ s.tick.2.table.loops i) :
    s.tick.2.registry.timers.find? l.handle =
      some ⟨l.handle, l.period, s.registry.timers.now + l.period⟩ := by
  obtain ⟨t, ht, hhandle, hperiod⟩ := hafter.exists_timer hl'
  have hdue : t.nextDue = s.registry.timers.now + t.period := by
    rcases (leadsTo_tick s).running t ht with hold | ⟨-, hdue⟩
    · exact absurd (hdrives.issued t hold) (Nat.not_lt.mpr (hhandle ▸ hnew))
    · exact hdue
  have ht' : t = ⟨l.handle, l.period, s.registry.timers.now + l.period⟩ := by
    rw [← hhandle, ← hperiod, ← hdue]
  exact hafter.find?_eq_some_iff.mpr ⟨ht' ▸ ht, rfl⟩

theorem carriesOver_tick {p : Paragraph R} (hp : s.document[i]? = some p)
    (hwants : s.config.symbols.wantsActivation p.text = true) :
    ∃ armed, CarriesOver s.config p s.registry.timers s.tick.2.registry.timers
      (s.table.loops i) (s.tick.2.table.loops i) armed := by
  have hscore : s.score? i = some (Score.ofParagraph s.config p) :=
    score?_eq_some_iff.mpr ⟨p, hp, hwants, rfl⟩
  have hkeys : (Score.ofParagraph s.config p).keys = (p.regions s.config).map Region.key :=
    Score.keys_ofCells s.config _
  obtain ⟨armed, hstate, hpairs, hhandle⟩ := state_tick_of_some hscore
  have hloops : s.tick.2.table.loops i =
      (s.table.state i).kept (Score.ofParagraph s.config p) ++ armed := by
    rw [LoopTable.loops, hstate]
    rfl
  have hnew {l : LoopTimer R} (hl : l ∈ armed) : l ∈ s.tick.2.table.loops i := by
    rw [hloops]
    exact List.mem_append_right _ hl
  refine ⟨armed, ?_, ?_, ?_, ?_, p.increasing_regions s.config, ?_, ?_⟩
  · rw [hloops, Activity.kept, hkeys]
    refine congrArg (· ++ armed) (List.filter_congr fun l _ => ?_)
    rw [Bool.eq_iff_iff, List.contains_iff_mem, decide_eq_true_iff]
  · intro l hl hkey
    have hkept : l ∈ s.tick.2.table.loops i := by
      rw [hloops]
      exact List.mem_append_left _ (Activity.mem_kept_iff.mpr ⟨hl, hkeys ▸ hkey⟩)
    exact (leadsTo_tick s).find?_eq hdrives hafter hl hkept
  · intro l hl hkey
    have hgone : l ∉ s.tick.2.table.loops i := by
      rw [hloops, List.mem_append, not_or]
      constructor
      · intro hkept
        exact hkey (hkeys ▸ (Activity.mem_kept_iff.mp hkept).2)
      · intro harmed
        exact absurd (hdrives.handle_lt hl) (Nat.not_lt.mpr (hhandle l harmed))
    exact ⟨hdrives.isSome_find?_iff.mpr ⟨i, l, hl, rfl⟩,
      find?_tick_of_gone hdrives hafter hl hgone⟩
  · rw [hpairs]
    exact Activity.map_fresh_ofParagraph s.config p _ _
  · have hincreasing := hafter.increasing_loops i
    rw [hloops, List.map_append] at hincreasing
    exact (List.pairwise_append.mp hincreasing).2.1
  · intro l hl
    exact ⟨hhandle l hl, find?_tick_of_new hdrives hafter (hhandle l hl) (hnew hl)⟩

end

/-- **Edits do not restart the loops they do not concern.** -/
theorem edit_carries_loops_over {config : Config R} {s : Session R} (hs : s.Attainable config)
    (document : Document R) {i : Nat} {p : Paragraph R} (hp : document[i]? = some p)
    (hwants : config.symbols.wantsActivation p.text = true) :
    (∃ armed, CarriesOver config p s.registry.timers (s.edit document).2.registry.timers
      (s.table.loops i) ((s.edit document).2.table.loops i) armed) ∧
    ((s.table.state i).isActive = true → ∃ q, s.document[i]? = some q ∧
      (((q.regions config).map (q.textInside config)).Perm
          ((p.regions config).map (p.textInside config)) →
        (s.edit document).2.table.loops i = s.table.loops i ∧
          ∀ l ∈ s.table.loops i, (s.edit document).2.registry.timers.find? l.handle =
            s.registry.timers.find? l.handle)) := by
  obtain ⟨rfl, hcoherent⟩ := hs.config_and_coherent
  have hafter := hcoherent.edit document
  obtain ⟨armed, hcarries⟩ :=
    carriesOver_tick (s := { s with document }) hcoherent.drives hafter.drives hp hwants
  refine ⟨⟨armed, hcarries⟩, fun hactive => ?_⟩
  obtain ⟨q, hq, -, hdemands⟩ := hcoherent.exists_perm_demands hactive
  exact ⟨q, hq, fun hperm => hcarries.loops_eq_of_perm hdemands hperm⟩

/-- Regions that change places keep their timers. -/
theorem edit_carries_reordered_loops_over :
    let s := ofEdits (Config.standard : Config Rat) [Document.ofText "[a] [b].".toList]
    let p := Paragraph.plain "[b] x [a].".toList
    s.Attainable Config.standard ∧
      (Config.standard : Config Rat).symbols.wantsActivation p.text = true ∧
      (s.table.loops 0).map LoopTimer.handle = [0, 1] ∧
      (s.edit [p]).2.table.loops 0 = s.table.loops 0 := by
  intro s p
  have hs : s.Attainable Config.standard := attainable_ofEdits (by decide +kernel) _
  have hwants : (Config.standard : Config Rat).symbols.wantsActivation p.text = true := by decide
  obtain ⟨-, hunconcerned⟩ := edit_carries_loops_over hs [p] (i := 0) rfl hwants
  obtain ⟨q, hq, hsame⟩ := hunconcerned (by decide)
  obtain rfl : Paragraph.plain "[a] [b].".toList = q := Option.some_inj.mp hq
  exact ⟨hs, hwants, by decide, (hsame (by decide)).1⟩

end Session

end ProseScore
