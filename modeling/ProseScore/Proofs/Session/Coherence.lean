import ProseScore.Proofs.Session.Demand
import ProseScore.Proofs.Session.Following
import ProseScore.Proofs.Timer.Drain
import ProseScore.Session.Command

/-!
# Sessions in order

Two things hold whenever a session is at rest.  The registry drives the table,
and every active paragraph of the table runs exactly the loops that the score of
this paragraph demands in the document of the session.  A tick brings the table
in line with any document whatever, so it needs less: that each running loop is
one its own text asks for.
-/

namespace ProseScore

variable {R : Type} [Scalar R]

/-- A paragraph is idle, or it has a score and runs the loops that the score
demands, each once. -/
def Activity.Fits (config : Config R) (score? : Option (Score R)) : Activity R → Prop
  | .idle => True
  | .active loops => ∃ score, score? = some score ∧
      (loops.map fun l => (l.key, l.period)).Perm (score.demands config)

namespace Session

omit [Scalar R] in
/-- The score of a paragraph, if it asks to be played. -/
def score? (s : Session R) (i : Nat) : Option (Score R) :=
  s.document[i]?.bind (Score.ofActive? s.config)

omit [Scalar R] in
theorem score?_eq_some_iff {s : Session R} {i : Nat} {score : Score R} :
    s.score? i = some score ↔ ∃ p, s.document[i]? = some p ∧
      s.config.symbols.wantsActivation p.text = true ∧ Score.ofParagraph s.config p = score := by
  rw [score?, Option.bind_eq_some_iff]
  refine exists_congr fun p => and_congr_right fun _ => ?_
  rw [Score.ofActive?]
  split
  · simp [*]
  · simp [*]

/-- The registry drives the table, and the table fits the document. -/
structure Coherent (s : Session R) : Prop where
  drives : s.registry.Drives s.table.loops
  fits : ∀ i, (s.table.state i).Fits s.config (s.score? i)

theorem coherent_new (config : Config R) (drawn drawnLive : Generator) :
    (new config drawn drawnLive).Coherent where
  drives := by
    have hloops : LoopTable.loops (new config drawn drawnLive).table = fun _ => [] := rfl
    rw [hloops]
    exact Registry.drives_empty
  fits := fun _ => trivial

/-- In a coherent session an active paragraph has a score, and runs its demands. -/
theorem Coherent.exists_perm_demands {s : Session R} (h : s.Coherent) {i : Nat}
    (hactive : (s.table.state i).isActive = true) :
    ∃ p, s.document[i]? = some p ∧ s.config.symbols.wantsActivation p.text = true ∧
      ((s.table.loops i).map fun l => (l.key, l.period)).Perm
        ((Score.ofParagraph s.config p).demands s.config) := by
  have hfits := h.fits i
  rw [LoopTable.loops]
  cases hstate : s.table.state i with
  | idle =>
      rw [hstate] at hactive
      exact absurd hactive (by simp [Activity.isActive])
  | active loops =>
      rw [hstate] at hfits
      obtain ⟨score, hscore, hperm⟩ := hfits
      obtain ⟨p, hp, hwants, rfl⟩ := score?_eq_some_iff.mp hscore
      exact ⟨p, hp, hwants, hperm⟩

/-- In a coherent session a loop runs because the text of its key asks for it. -/
theorem Coherent.apt {s : Session R} (h : s.Coherent) {i : Nat} {l : LoopTimer R}
    (hl : l ∈ s.table.loops i) : l.Apt s.config := by
  obtain ⟨p, -, -, hperm⟩ := h.exists_perm_demands (LoopTable.isActive_of_mem_loops hl)
  have hdemand : (l.key, l.period) ∈ (Score.ofParagraph s.config p).demands s.config :=
    hperm.mem_iff.mp (List.mem_map_of_mem hl)
  obtain ⟨-, hsounds, hperiod⟩ := Score.mem_demands_iff.mp hdemand
  exact ⟨hsounds, hperiod⟩

end Session

/-! ## A paragraph after a tick -/

omit [Scalar R] in
theorem Activity.mem_kept_iff {score : Score R} {a : Activity R} {l : LoopTimer R} :
    l ∈ a.kept score ↔ l ∈ a.loops ∧ l.key ∈ score.keys := by
  rw [kept, List.mem_filter, List.contains_iff_mem]

/-- A paragraph of apt loops that follows a score comes to run what the score
demands, whatever score it followed before. -/
theorem Activity.perm_demands {config : Config R} {cs : List (Cell R)} {a : Activity R}
    (hapt : ∀ l ∈ a.loops, l.Apt config) {armed : List (LoopTimer R)}
    (harmed : armed.map (fun l => (l.key, l.period)) =
      (a.fresh (Score.ofCells config cs)).map fun (key, tokens) => (key, config.period tokens))
    (hnodup : ((a.kept (Score.ofCells config cs) ++ armed).map LoopTimer.key).Nodup) :
    ((a.kept (Score.ofCells config cs) ++ armed).map fun l => (l.key, l.period)).Perm
      ((Score.ofCells config cs).demands config) := by
  have hpairs :
      ((a.kept (Score.ofCells config cs) ++ armed).map fun l => (l.key, l.period)).Nodup := by
    apply List.Nodup.of_map Prod.fst
    rw [List.map_map]
    exact hnodup
  have hdemands := List.Nodup.of_map Prod.fst (Score.nodup_keys_demands config cs)
  apply (List.perm_ext_iff_of_nodup hpairs hdemands).mpr
  rintro ⟨key, period⟩
  rw [List.map_append, harmed, List.mem_append]
  constructor
  · rintro (hkept | hfresh)
    · obtain ⟨l, hl, heq⟩ := List.mem_map.mp hkept
      obtain ⟨rfl, rfl⟩ := Prod.mk.inj heq
      obtain ⟨hmem, hkey⟩ := Activity.mem_kept_iff.mp hl
      exact Score.mem_demands_iff.mpr ⟨hkey, (hapt l hmem).sounds, (hapt l hmem).period_eq⟩
    · obtain ⟨⟨key', tokens⟩, hx, heq⟩ := List.mem_map.mp hfresh
      obtain ⟨hloop, hne⟩ := List.mem_filter.mp hx
      rw [Bool.and_eq_true] at hne
      exact List.mem_map.mpr ⟨(key', tokens), List.mem_filter.mpr ⟨hloop, hne.1⟩, heq⟩
  · intro hdemand
    by_cases hrunning : ∃ l ∈ a.kept (Score.ofCells config cs), l.key = key
    · obtain ⟨l, hl, rfl⟩ := hrunning
      have hperiod := (Score.mem_demands_iff.mp hdemand).2.2
      have hl' := (hapt l (Activity.mem_kept_iff.mp hl).1).period_eq
      exact Or.inl (List.mem_map.mpr ⟨l, hl, by rw [hl', hperiod]⟩)
    · obtain ⟨⟨key', tokens⟩, hx, heq⟩ := List.mem_map.mp hdemand
      obtain ⟨hloop, hne⟩ := List.mem_filter.mp hx
      refine Or.inr (List.mem_map.mpr ⟨(key', tokens), List.mem_filter.mpr ⟨hloop, ?_⟩, heq⟩)
      obtain ⟨rfl, -⟩ := Prod.mk.inj heq
      rw [Bool.and_eq_true, Bool.not_eq_true', Bool.not_eq_true', List.any_eq_false]
      refine ⟨by simpa using hne, fun l hl => ?_⟩
      simpa using fun hkey => hrunning ⟨l, hl, hkey⟩

namespace Session

/-! ## Steps that only sound -/

/-- The second session differs from the first one in what has been played and
drawn, and in nothing else. -/
structure SameLoops (s s' : Session R) : Prop where
  config_eq : s'.config = s.config
  document_eq : s'.document = s.document
  table_eq : s'.table = s.table
  registry_eq : s'.registry = s.registry

omit [Scalar R] in
theorem SameLoops.refl (s : Session R) : s.SameLoops s :=
  ⟨rfl, rfl, rfl, rfl⟩

omit [Scalar R] in
theorem SameLoops.trans {s₁ s₂ s₃ : Session R} (h₁ : s₁.SameLoops s₂) (h₂ : s₂.SameLoops s₃) :
    s₁.SameLoops s₃ where
  config_eq := h₂.config_eq.trans h₁.config_eq
  document_eq := h₂.document_eq.trans h₁.document_eq
  table_eq := h₂.table_eq.trans h₁.table_eq
  registry_eq := h₂.registry_eq.trans h₁.registry_eq

theorem sameLoops_play (s : Session R) (i : Nat) (source : Source) (tokens : List (Token R)) :
    s.SameLoops (s.play i source tokens).2 :=
  ⟨rfl, rfl, rfl, rfl⟩

theorem sameLoops_playBodies (s : Session R) (bodies : List (Nat × List (Token R))) :
    s.SameLoops (s.playBodies bodies).2 := by
  induction bodies generalizing s with
  | nil => exact SameLoops.refl s
  | cons body bodies ih => exact (s.sameLoops_play body.1 .oneShot body.2).trans (ih _)

theorem timerFired_of_none {s : Session R} {handle : Nat} (h : s.registry.owner? handle = none) :
    s.timerFired handle = (none, s) := by
  rw [timerFired, h]

/-- A timer whose owner has something to play plays it. -/
theorem timerFired_of_owner {s : Session R} {handle : Nat} {owner : Owner}
    (ho : s.registry.owner? handle = some owner) {p : Paragraph R}
    (hp : s.document[owner.paragraph]? = some p)
    (hne : (Score.ofParagraph s.config p).loop owner.key ≠ []) :
    s.timerFired handle =
      let played := s.play owner.paragraph (.loop owner.key)
        ((Score.ofParagraph s.config p).loop owner.key)
      (some played.1, played.2) := by
  rw [timerFired, ho]
  simp only [hp]

/-- A firing changes nothing, or plays a loop and reports it. -/
theorem timerFired_cases (s : Session R) (handle : Nat) :
    s.timerFired handle = (none, s) ∨ ∃ i key tokens,
      s.timerFired handle =
        let played := s.play i (.loop key) tokens
        (some played.1, played.2) := by
  cases ho : s.registry.owner? handle with
  | none => exact Or.inl (timerFired_of_none ho)
  | some owner =>
      cases hp : s.document[owner.paragraph]? with
      | none => exact Or.inl (by simp [timerFired, ho, hp])
      | some p =>
          by_cases hne : (Score.ofParagraph s.config p).loop owner.key = []
          · exact Or.inl (by simp [timerFired, ho, hp, hne])
          · exact Or.inr ⟨_, _, _, timerFired_of_owner ho hp hne⟩

theorem sameLoops_timerFired (s : Session R) (handle : Nat) :
    s.SameLoops (s.timerFired handle).2 := by
  rcases s.timerFired_cases handle with hsilent | ⟨i, key, tokens, hplayed⟩
  · rw [hsilent]
    exact SameLoops.refl s
  · rw [hplayed]
    exact s.sameLoops_play i (.loop key) tokens

theorem sameLoops_deliver (s : Session R) (firings : List (Firing R)) :
    s.SameLoops (s.deliver firings).2 := by
  induction firings generalizing s with
  | nil => exact SameLoops.refl s
  | cons f firings ih =>
      have hmoved : s.SameLoops { s with recorder := s.recorder.advanceTo f.due } :=
        ⟨rfl, rfl, rfl, rfl⟩
      exact (hmoved.trans (sameLoops_timerFired _ f.handle)).trans (ih _)

theorem sameLoops_strike (s : Session R) (a : Attributes R) (key : Char) :
    s.SameLoops (s.strike a key).2 := by
  rw [strike]
  split
  · exact ⟨rfl, rfl, rfl, rfl⟩
  · exact ⟨rfl, rfl, rfl, rfl⟩

theorem sameLoops_keystroke (s : Session R) (caret : Caret) (key : Char) :
    s.SameLoops (s.keystroke caret key).2 := by
  simp only [keystroke]
  split
  · split
    · exact SameLoops.refl s
    · split
      · exact SameLoops.refl s
      · split
        · exact ⟨rfl, rfl, rfl, rfl⟩
        · exact s.sameLoops_strike _ key
  · exact SameLoops.refl s

theorem SameLoops.coherent {s s' : Session R} (h : s.SameLoops s') (hs : s.Coherent) :
    s'.Coherent := by
  obtain ⟨hconfig, hdocument, htable, hregistry⟩ := h
  constructor
  · rw [hregistry, htable]
    exact hs.drives
  · intro i
    have hscore : s'.score? i = s.score? i := by
      rw [score?, score?, hconfig, hdocument]
    rw [htable, hconfig, hscore]
    exact hs.fits i

/-! ## Ticks -/

theorem config_tick (s : Session R) : s.tick.2.config = s.config :=
  (s.sameLoops_playBodies _).config_eq

theorem document_tick (s : Session R) : s.tick.2.document = s.document :=
  (s.sameLoops_playBodies _).document_eq

theorem table_tick (s : Session R) :
    s.tick.2.table = (LoopTable.follow s.config 0 s.scores s.table s.registry).1 := rfl

theorem registry_tick (s : Session R) :
    s.tick.2.registry = (LoopTable.follow s.config 0 s.scores s.table s.registry).2 := rfl

omit [Scalar R] in
theorem getElem?_scores (s : Session R) (i : Nat) :
    s.scores[i]? = s.document[i]?.map (Score.ofActive? s.config) := by
  rw [scores, List.getElem?_map]

/-- A paragraph with a score keeps what it can and starts the rest, with handles
that no timer has had. -/
theorem state_tick_of_some {s : Session R} {i : Nat} {score : Score R}
    (h : s.score? i = some score) :
    ∃ armed, s.tick.2.table.state i = .active ((s.table.state i).kept score ++ armed) ∧
      armed.map (fun l => (l.key, l.period)) =
        ((s.table.state i).fresh score).map (fun (key, tokens) => (key, s.config.period tokens)) ∧
      ∀ l ∈ armed, s.registry.timers.nextHandle ≤ l.handle := by
  obtain ⟨p, hp, hactive⟩ := Option.bind_eq_some_iff.mp h
  have hscores : s.scores[i]? = some (some score) := by
    rw [getElem?_scores, hp, Option.map_some, hactive]
  obtain ⟨later, hlater, hstate⟩ :=
    LoopTable.state_follow s.config 0 s.table s.registry hscores
  refine ⟨((s.table.state i).armed s.config (0 + i) score later).1, ?_, ?_, ?_⟩
  · rw [table_tick, hstate, Activity.follow_some]
  · exact Registry.map_armLoops s.config (0 + i) _ _
  · exact fun l hl => Nat.le_trans hlater.nextHandle_le (Activity.le_handle_armed hl)

theorem state_tick_of_none {s : Session R} {i : Nat} (h : s.score? i = none) :
    s.tick.2.table.state i = .idle := by
  rw [table_tick]
  cases hp : s.document[i]? with
  | none =>
      apply LoopTable.state_follow_of_none
      rw [getElem?_scores, hp, Option.map_none]
  | some p =>
      have hscores : s.scores[i]? = some none := by
        rw [score?, hp, Option.bind_some] at h
        rw [getElem?_scores, hp, Option.map_some, h]
      obtain ⟨later, -, hstate⟩ := LoopTable.state_follow s.config 0 s.table s.registry hscores
      rw [hstate]
      rfl

theorem isActive_tick_iff (s : Session R) (i : Nat) :
    (s.tick.2.table.state i).isActive = true ↔ ∃ score, s.score? i = some score := by
  cases h : s.score? i with
  | none =>
      rw [state_tick_of_none h]
      simp [Activity.isActive]
  | some score =>
      obtain ⟨armed, hstate, -, -⟩ := state_tick_of_some h
      rw [hstate]
      simp [Activity.isActive]

/-- A tick puts a session in order, whatever document it has been given. -/
theorem coherent_tick {s : Session R} (hdrives : s.registry.Drives s.table.loops)
    (hapt : ∀ i, ∀ l ∈ s.table.loops i, l.Apt s.config) : s.tick.2.Coherent := by
  have hkeys : ∀ score, some score ∈ s.scores → score.keys.Nodup := by
    intro score hscore
    obtain ⟨p, -, hactive⟩ := List.mem_map.mp hscore
    rw [Score.ofActive?] at hactive
    split at hactive
    · obtain rfl := Option.some_inj.mp hactive
      exact Score.nodup_keys_ofCells s.config _
    · exact absurd hactive (by simp)
  have hafter : s.tick.2.registry.Drives s.tick.2.table.loops :=
    Registry.Drives.follow [] hdrives s.config hkeys
  refine ⟨hafter, fun i => ?_⟩
  have hscore : s.tick.2.score? i = s.score? i := by
    rw [score?, score?, config_tick, document_tick]
  rw [config_tick, hscore]
  cases h : s.score? i with
  | none =>
      rw [state_tick_of_none h]
      trivial
  | some score =>
      obtain ⟨armed, hstate, harmed, -⟩ := state_tick_of_some h
      obtain ⟨p, -, -, rfl⟩ := score?_eq_some_iff.mp h
      have hnodup := hafter.nodup_keys i
      rw [LoopTable.loops, hstate] at hnodup
      rw [hstate]
      exact ⟨_, rfl, Activity.perm_demands (hapt i) harmed hnodup⟩

theorem Coherent.tick {s : Session R} (h : s.Coherent) : s.tick.2.Coherent :=
  coherent_tick h.drives fun _ _ hl => h.apt hl

theorem Coherent.edit {s : Session R} (h : s.Coherent) (document : Document R) :
    (s.edit document).2.Coherent :=
  coherent_tick (s := { s with document }) h.drives fun _ _ hl => h.apt hl

end Session

end ProseScore
