import Mathlib.Algebra.GroupWithZero.Nat
import ProseScore.Proofs.Session.Attainable
import ProseScore.Proofs.Sound.Timeline
import ProseScore.Scalar.Exact

/-!
# Bodies play when paragraphs open

The body of a paragraph is not asked for by an event of its own.  It plays when a
tick finds the paragraph idle and leaves it active.  So a run plays it as often as
the paragraph goes from the one state to the other, in whatever way it came to be
idle in between.
-/

namespace ProseScore

variable {R : Type} [Scalar R]

/-- The performances of some token lists that begin together.  Each draws its
pitches behind the one before it. -/
def performEach (config : Config R) (start : R) : Generator → List (List (Token R)) →
    List (Performance R)
  | _, [] => []
  | g, ts :: rest =>
    perform config start g ts ::
      performEach config start (perform config start g ts).generator rest

/-- Where all token lists rest, and only there, nothing is recorded. -/
theorem flatMap_performEach_eq_nil_iff {config : Config R} {start : R} {g : Generator}
    {tss : List (List (Token R))}
    (h : ∀ ts ∈ tss, ∃ excluded cs, Token.ofCells config excluded cs = ts) :
    (performEach config start g tss).flatMap Performance.events = [] ↔
      ∀ ts ∈ tss, ∀ t ∈ ts, t.isRest = true := by
  induction tss generalizing g with
  | nil => simp [performEach]
  | cons ts tss ih =>
      obtain ⟨⟨excluded, cs, rfl⟩, hrest⟩ := List.forall_mem_cons.mp h
      have hfirst := Token.laidOut_ofCells config start g excluded cs
      rw [performEach, List.flatMap_cons, List.append_eq_nil_iff, hfirst.eq_nil_iff, ih hrest,
        List.forall_mem_cons]

omit [Scalar R] in
/-- The tokens that stand outside the regions of a paragraph. -/
def Paragraph.tokensOutside (config : Config R) (p : Paragraph R) : List (Token R) :=
  Token.ofCells config ((p.regions config).map Region.interior)
    (Cell.ofParagraph config.baseSize p)

omit [Scalar R] in
theorem Score.body_ofParagraph (config : Config R) (p : Paragraph R) :
    (ofParagraph config p).body = p.tokensOutside config := rfl

/-! ## The bodies of a tick -/

omit [Scalar R] in
/-- What a paragraph plays when it comes to follow a score: the body, if it has
been idle and there is something to play. -/
def Activity.opening? (a : Activity R) (score? : Option (Score R)) : Option (List (Token R)) :=
  score?.bind fun score => if a.isActive || score.body.isEmpty then none else some score.body

omit [Scalar R] in
theorem Activity.opening?_eq_some_iff {a : Activity R} {score? : Option (Score R)}
    {tokens : List (Token R)} :
    a.opening? score? = some tokens ↔ ∃ score, score? = some score ∧ a.isActive = false ∧
      score.body = tokens ∧ tokens ≠ [] := by
  rw [opening?, Option.bind_eq_some_iff]
  refine exists_congr fun score => and_congr_right fun _ => ?_
  split_ifs with hsilent
  · rw [Bool.or_eq_true, List.isEmpty_iff] at hsilent
    constructor
    · intro h
      exact absurd h (by simp)
    · rintro ⟨hidle, rfl, hne⟩
      rcases hsilent with hactive | hnil
      · exact absurd (hidle.symm.trans hactive) (by simp)
      · exact absurd hnil hne
  · rw [Bool.or_eq_true, not_or, Bool.not_eq_true, List.isEmpty_iff] at hsilent
    rw [Option.some_inj]
    constructor
    · rintro rfl
      exact ⟨hsilent.1, rfl, hsilent.2⟩
    · exact fun h => h.2.1

namespace LoopTable

omit [Scalar R] in
theorem openings_cons (i : Nat) (score? : Option (Score R)) (scores : List (Option (Score R)))
    (table : LoopTable R) :
    openings i (score? :: scores) table =
      (((table.state 0).opening? score?).toList.map fun tokens => (i, tokens)) ++
        openings (i + 1) scores table.tail := by
  cases score? with
  | none => rfl
  | some score =>
      rw [openings, Activity.opening?, Option.bind_some]
      split_ifs
      · rfl
      · rfl

omit [Scalar R] in
theorem mem_openings_iff {i j : Nat} {scores : List (Option (Score R))} {table : LoopTable R}
    {tokens : List (Token R)} :
    (j, tokens) ∈ openings i scores table ↔ ∃ k score?, j = i + k ∧ scores[k]? = some score? ∧
      (table.state k).opening? score? = some tokens := by
  induction scores generalizing i table with
  | nil => simp [openings]
  | cons score? scores ih =>
      rw [openings_cons, List.mem_append, ih]
      constructor
      · rintro (hfirst | ⟨k, score?, hj, hscore, hopening⟩)
        · obtain ⟨tokens', htokens, heq⟩ := List.mem_map.mp hfirst
          obtain ⟨rfl, rfl⟩ := Prod.mk.inj heq
          exact ⟨0, score?, rfl, rfl, Option.mem_toList.mp htokens⟩
        · rw [state_tail] at hopening
          exact ⟨k + 1, score?, by omega, hscore, hopening⟩
      · rintro ⟨k, score?', rfl, hscore, hopening⟩
        cases k with
        | zero =>
            obtain rfl : score? = score?' := Option.some_inj.mp hscore
            exact Or.inl (List.mem_map.mpr ⟨tokens, Option.mem_toList.mpr hopening, rfl⟩)
        | succ k =>
            rw [← state_tail] at hopening
            exact Or.inr ⟨k, score?', by omega, hscore, hopening⟩

omit [Scalar R] in
theorem increasing_openings (i : Nat) (scores : List (Option (Score R))) (table : LoopTable R) :
    ((openings i scores table).map Prod.fst).Pairwise (· < ·) := by
  induction scores generalizing i table with
  | nil => exact List.Pairwise.nil
  | cons score? scores ih =>
      rw [openings_cons, List.map_append]
      refine List.pairwise_append.mpr ⟨?_, ih (i + 1) table.tail, ?_⟩
      · cases (table.state 0).opening? score? with
        | none => exact List.Pairwise.nil
        | some tokens => exact List.pairwise_singleton _ _
      · intro j hj k hk
        obtain ⟨x, hx, rfl⟩ := List.mem_map.mp hj
        obtain ⟨tokens, -, rfl⟩ := List.mem_map.mp hx
        obtain ⟨⟨k, tokens'⟩, hy, rfl⟩ := List.mem_map.mp hk
        obtain ⟨m, -, rfl, -⟩ := mem_openings_iff.mp hy
        show i < i + 1 + m
        omega

end LoopTable

omit [Scalar R] in
theorem Recorder.record_nil (r : Recorder R) : r.record [] = r := by
  simp [record]

omit [Scalar R] in
theorem Recorder.record_append (r : Recorder R) (es fs : List (NoteEvent R)) :
    (r.record es).record fs = r.record (es ++ fs) := by
  have hevents : r.events ++ es ++ fs = r.events ++ (es ++ fs) := by
    apply Array.toList_inj.mp
    simp
  rw [record, record, record, hevents]

namespace Session

theorem paragraphs_playBodies (s : Session R) (bodies : List (Nat × List (Token R))) :
    (s.playBodies bodies).1.map Report.paragraph = bodies.map Prod.fst := by
  induction bodies generalizing s with
  | nil => rfl
  | cons body bodies ih => exact congrArg (body.1 :: ·) (ih _)

theorem report_of_mem_playBodies {s : Session R} {bodies : List (Nat × List (Token R))}
    {report : Report R} (h : report ∈ (s.playBodies bodies).1) :
    ∃ tokens g, (report.paragraph, tokens) ∈ bodies ∧ report.source = .oneShot ∧
      report.start = s.recorder.now ∧
        report.letters = (perform s.config s.recorder.now g tokens).letters := by
  induction bodies generalizing s with
  | nil => exact absurd h List.not_mem_nil
  | cons body bodies ih =>
      rcases List.mem_cons.mp h with rfl | h
      · exact ⟨body.2, s.generator, List.mem_cons_self, rfl, rfl, rfl⟩
      · obtain ⟨tokens, g, hmem, hreport⟩ := ih h
        exact ⟨tokens, g, List.mem_cons_of_mem body hmem, hreport⟩

theorem recorder_playBodies (s : Session R) (bodies : List (Nat × List (Token R))) :
    (s.playBodies bodies).2.recorder = s.recorder.record
      ((performEach s.config s.recorder.now s.generator (bodies.map Prod.snd)).flatMap
        Performance.events) := by
  induction bodies generalizing s with
  | nil => exact s.recorder.record_nil.symm
  | cons body bodies ih =>
      show ((s.play body.1 .oneShot body.2).2.playBodies bodies).2.recorder = _
      rw [ih, List.map_cons, performEach, List.flatMap_cons, ← Recorder.record_append]
      rfl

/-- What a session plays when it comes in line with a document: one after the
other the bodies of the paragraphs that have been idle, ask to be played and have
something to play. -/
structure PlaysBodies (s : Session R) (document : Document R) (reports : List (Report R))
    (later : Session R) : Prop where
  increasing : (reports.map Report.paragraph).Pairwise (· < ·)
  mem_paragraphs_iff : ∀ i, i ∈ reports.map Report.paragraph ↔ ∃ p, document[i]? = some p ∧
    (s.table.state i).isActive = false ∧ s.config.symbols.wantsActivation p.text = true ∧
      p.tokensOutside s.config ≠ []
  report_eq : ∀ report ∈ reports, ∃ p, document[report.paragraph]? = some p ∧
    report.source = .oneShot ∧ report.start = s.recorder.now ∧
      report.letters = (p.tokensOutside s.config).flatMap fun t => t.letters.map Letter.index
  events_eq : later.recorder.events.toList = s.recorder.events.toList ++
    (performEach s.config s.recorder.now s.generator
      ((reports.map Report.paragraph).filterMap fun i =>
        document[i]?.map (Paragraph.tokensOutside s.config))).flatMap Performance.events
  stops_eq : later.recorder.stops = s.recorder.stops
  now_eq : later.recorder.now = s.recorder.now

omit [Scalar R] in
theorem getElem?_scores_iff {s : Session R} {i : Nat} {score : Score R} :
    s.scores[i]? = some (some score) ↔ s.score? i = some score := by
  rw [getElem?_scores, score?]
  cases s.document[i]? with
  | none => simp
  | some p => simp

omit [Scalar R] in
theorem mem_openings_iff {s : Session R} {i : Nat} {tokens : List (Token R)} :
    (i, tokens) ∈ s.table.openings 0 s.scores ↔ ∃ p, s.document[i]? = some p ∧
      (s.table.state i).isActive = false ∧ s.config.symbols.wantsActivation p.text = true ∧
        p.tokensOutside s.config = tokens ∧ tokens ≠ [] := by
  rw [LoopTable.mem_openings_iff]
  constructor
  · rintro ⟨k, score?, hi, hscore, hopening⟩
    obtain rfl : i = k := by omega
    obtain ⟨score, rfl, hidle, hbody, hne⟩ := Activity.opening?_eq_some_iff.mp hopening
    obtain ⟨p, hp, hwants, rfl⟩ := score?_eq_some_iff.mp (getElem?_scores_iff.mp hscore)
    rw [Score.body_ofParagraph] at hbody
    exact ⟨p, hp, hidle, hwants, hbody, hne⟩
  · rintro ⟨p, hp, hidle, hwants, hbody, hne⟩
    have hscore : s.score? i = some (.ofParagraph s.config p) :=
      score?_eq_some_iff.mpr ⟨p, hp, hwants, rfl⟩
    exact ⟨i, _, (Nat.zero_add i).symm, getElem?_scores_iff.mpr hscore,
      Activity.opening?_eq_some_iff.mpr ⟨_, rfl, hidle, hbody, hne⟩⟩

theorem recorder_tick (s : Session R) : s.tick.2.recorder = s.recorder.record
    ((performEach s.config s.recorder.now s.generator
      ((s.table.openings 0 s.scores).map Prod.snd)).flatMap Performance.events) :=
  s.recorder_playBodies _

theorem playsBodies_tick (s : Session R) : s.PlaysBodies s.document s.tick.1 s.tick.2 := by
  have hparagraphs : s.tick.1.map Report.paragraph =
      (s.table.openings 0 s.scores).map Prod.fst := s.paragraphs_playBodies _
  constructor
  · rw [hparagraphs]
    exact LoopTable.increasing_openings 0 s.scores s.table
  · intro i
    rw [hparagraphs, List.mem_map]
    constructor
    · rintro ⟨⟨i, tokens⟩, hmem, rfl⟩
      obtain ⟨p, hp, hidle, hwants, rfl, hne⟩ := mem_openings_iff.mp hmem
      exact ⟨p, hp, hidle, hwants, hne⟩
    · rintro ⟨p, hp, hidle, hwants, hne⟩
      exact ⟨_, mem_openings_iff.mpr ⟨p, hp, hidle, hwants, rfl, hne⟩, rfl⟩
  · intro report hreport
    obtain ⟨tokens, g, hmem, hsource, hstart, hletters⟩ := report_of_mem_playBodies hreport
    obtain ⟨p, hp, -, -, rfl, -⟩ := mem_openings_iff.mp hmem
    refine ⟨p, hp, hsource, hstart, ?_⟩
    -- The letters of a body all have pitches, so whatever is drawn they all sound.
    rw [hletters]
    exact letters_perform s.config _ g fun t ht l hl => Token.isLetter_of_mem_ofCells ht hl
  · have hbodies : ((s.table.openings 0 s.scores).map Prod.fst).filterMap (fun i =>
        s.document[i]?.map (Paragraph.tokensOutside s.config)) =
          (s.table.openings 0 s.scores).map Prod.snd := by
      rw [List.filterMap_map, ← List.filterMap_eq_map]
      apply List.filterMap_congr
      rintro ⟨i, tokens⟩ hmem
      obtain ⟨p, hp, -, -, rfl, -⟩ := mem_openings_iff.mp hmem
      simp [hp]
    rw [hparagraphs, hbodies, recorder_tick, Recorder.toList_events_record]
  · rw [recorder_tick]
    rfl
  · rw [recorder_tick]
    rfl

/-- A tick comes back if all bodies that it plays can be played. -/
theorem comesBack_tick_iff (s : Session R) :
    s.comesBack s.tick.2 = true ↔ ∀ i p, s.document[i]? = some p →
      (s.table.state i).isActive = false → s.config.symbols.wantsActivation p.text = true →
        s.config.CanPlay (p.tokensOutside s.config) := by
  have hevents : s.tick.2.recorder.events.toList = s.recorder.events.toList ++
      (performEach s.config s.recorder.now s.generator
        ((s.table.openings 0 s.scores).map Prod.snd)).flatMap Performance.events := by
    rw [recorder_tick, Recorder.toList_events_record]
  have hread : ∀ tokens ∈ (s.table.openings 0 s.scores).map Prod.snd,
      ∃ excluded cs, Token.ofCells s.config excluded cs = tokens := by
    intro tokens htokens
    obtain ⟨⟨i, tokens⟩, hmem, rfl⟩ := List.mem_map.mp htokens
    obtain ⟨p, -, -, -, rfl, -⟩ := mem_openings_iff.mp hmem
    exact ⟨_, _, rfl⟩
  rw [comesBack_iff hevents, flatMap_performEach_eq_nil_iff hread]
  constructor
  · rintro (hbounded | hrest) i p hp hidle hwants
    · exact Or.inl hbounded
    · by_cases hne : p.tokensOutside s.config = []
      · exact Or.inr (by simp [hne])
      · have hmem := mem_openings_iff.mpr ⟨p, hp, hidle, hwants, rfl, hne⟩
        exact Or.inr (hrest _ (List.mem_map_of_mem hmem))
  · intro h
    refine or_iff_not_imp_left.mpr fun hbounded tokens htokens => ?_
    obtain ⟨⟨i, tokens⟩, hmem, rfl⟩ := List.mem_map.mp htokens
    obtain ⟨p, hp, hidle, hwants, rfl, -⟩ := mem_openings_iff.mp hmem
    exact (h i p hp hidle hwants).resolve_left hbounded

end Session

/-! ## What a command does -/

omit [Scalar R] in
/-- The reports in what a command answers. -/
def Outcome.toReports : Outcome R → List (Report R)
  | .reports rs => rs
  | .keystroke _ => []
  | .fired r => r.toList
  | .stopped => []

namespace Session

theorem source_of_timerFired {s : Session R} {handle : Nat} {report : Report R}
    (h : (s.timerFired handle).1 = some report) : ∃ key, report.source = .loop key := by
  rcases s.timerFired_cases handle with hsilent | ⟨i, key, tokens, hplayed⟩
  · rw [hsilent] at h
    exact absurd h (by simp)
  · rw [hplayed] at h
    exact ⟨key, Option.some_inj.mp h ▸ rfl⟩

theorem source_of_mem_deliver {s : Session R} {firings : List (Firing R)} {f : Firing R}
    {report : Report R} (h : (f, some report) ∈ (s.deliver firings).1) :
    ∃ key, report.source = .loop key := by
  induction firings generalizing s with
  | nil => exact absurd h List.not_mem_nil
  | cons f' firings ih =>
      rcases List.mem_cons.mp h with heq | h
      · exact source_of_timerFired (Prod.mk.inj heq).2.symm
      · exact ih h

theorem source_of_advance? {s s' : Session R} {seconds : R} {reports : List (Report R)}
    (h : s.advance? seconds = some (reports, s')) {report : Report R} (hreport : report ∈ reports) :
    ∃ key, report.source = .loop key := by
  obtain ⟨⟨delivered, s''⟩, hadvance, heq⟩ := Option.map_eq_some_iff.mp h
  obtain ⟨⟨firings, timers⟩, -, hdelivered⟩ := Option.map_eq_some_iff.mp hadvance
  obtain ⟨rfl, -⟩ := Prod.mk.inj heq
  obtain ⟨rfl, -⟩ := Prod.mk.inj hdelivered
  obtain ⟨⟨f, report?⟩, hmem, rfl⟩ := List.mem_filterMap.mp hreport
  exact source_of_mem_deliver hmem

/-- The second session has the document and the loops of the first one.  Time may
have gone by, and more may have been played. -/
structure Continues (s s' : Session R) : Prop where
  config_eq : s'.config = s.config
  document_eq : s'.document = s.document
  table_eq : s'.table = s.table
  owners_eq : s'.registry.owners = s.registry.owners

omit [Scalar R] in
theorem SameLoops.continues {s s' : Session R} (h : s.SameLoops s') : s.Continues s' :=
  ⟨h.config_eq, h.document_eq, h.table_eq, congrArg Registry.owners h.registry_eq⟩

/-- A command brings the session in line with a document, or it goes on with what
there is and reports loops alone, or it stops everything. -/
theorem effect?_cases {s s' : Session R} {c : Command R} {outcome : Outcome R}
    (h : s.effect? c = some (outcome, s')) :
    (∃ document, (c = .edit document ∨ c = .tick ∧ document = s.document) ∧
      outcome = .reports (s.edit document).1 ∧ s' = (s.edit document).2) ∨
    (s.Continues s' ∧ ∀ report ∈ outcome.toReports, ∃ key, report.source = .loop key) ∨
    (c = .stopAll ∧ outcome = .stopped ∧ s' = s.stopAll) := by
  cases c with
  | edit document =>
      obtain ⟨rfl, rfl⟩ := Prod.mk.inj (Option.some_inj.mp h)
      exact Or.inl ⟨document, Or.inl rfl, rfl, rfl⟩
  | tick =>
      obtain ⟨rfl, rfl⟩ := Prod.mk.inj (Option.some_inj.mp h)
      exact Or.inl ⟨s.document, Or.inr ⟨rfl, rfl⟩, rfl, rfl⟩
  | keystroke caret key =>
      obtain ⟨rfl, rfl⟩ := Prod.mk.inj (Option.some_inj.mp h)
      exact Or.inr (Or.inl ⟨(s.sameLoops_keystroke caret key).continues,
        fun _ hreport => absurd hreport List.not_mem_nil⟩)
  | timerFired handle =>
      obtain ⟨rfl, rfl⟩ := Prod.mk.inj (Option.some_inj.mp h)
      exact Or.inr (Or.inl ⟨(s.sameLoops_timerFired handle).continues,
        fun _ hreport => source_of_timerFired (Option.mem_toList.mp hreport)⟩)
  | advance seconds =>
      obtain ⟨reports, hadvance, rfl⟩ := effect?_advance_eq_some h
      refine Or.inr (Or.inl ⟨?_, fun report hreport => source_of_advance? hadvance hreport⟩)
      obtain ⟨firings, timers, -, rfl⟩ := advance?_eq_some hadvance
      have hdelivered := s.sameLoops_deliver firings
      exact ⟨hdelivered.config_eq, hdelivered.document_eq, hdelivered.table_eq, rfl⟩
  | stopAll =>
      obtain ⟨rfl, rfl⟩ := Prod.mk.inj (Option.some_inj.mp h)
      exact Or.inr (Or.inr ⟨rfl, rfl, rfl⟩)

theorem config_effect? {s s' : Session R} {c : Command R} {outcome : Outcome R}
    (h : s.effect? c = some (outcome, s')) : s'.config = s.config := by
  rcases effect?_cases h with ⟨document, -, -, rfl⟩ | ⟨hsame, -⟩ | ⟨-, -, rfl⟩
  · exact config_tick _
  · exact hsame.config_eq
  · rfl

theorem config_step? {s s' : Session R} {c : Command R} {outcome : Outcome R}
    (h : s.step? c = some (outcome, s')) : s'.config = s.config :=
  config_effect? (effect?_of_step? h)

end Session

/-! ## Openings along a run -/

namespace Session

omit [Scalar R] in
/-- A paragraph goes from idle to active and has something to play. -/
def opens (i : Nat) (s s' : Session R) : Bool :=
  !(s.table.state i).isActive && (s'.table.state i).isActive &&
    s'.document[i]?.any fun p => !(p.tokensOutside s'.config).isEmpty

end Session
end ProseScore
