import ProseScore.Proofs.Session.Steps
import ProseScore.Proofs.Timer.Courses

/-!
# The voices of a paragraph

What runs in a paragraph is told without handles: by the keys and the periods of its
loops, in their order, and by the courses of their timers.  Of this and of its own
text a paragraph has its reports and what runs after a tick, whatever there is in the
other paragraphs.
-/

namespace ProseScore

variable {R : Type} [Scalar R]

/-- A running loop, but for its handle. -/
structure Voice (R : Type) where
  key : RegionKey
  period : R
  /-- The period and the next due time of its timer. -/
  course? : Option (R × R)

namespace LoopTable

omit [Scalar R] in
theorem filter_openings (i k : Nat) (scores : List (Option (Score R)))
    (table : LoopTable R) :
    (openings i scores table).filter (·.1 = i + k) =
      ((table.state k).opening? scores[k]?.join).toList.map fun tokens => (i + k, tokens) := by
  induction scores generalizing i k table with
  | nil => simp [openings, Activity.opening?]
  | cons score? scores ih =>
      rw [openings_cons, List.filter_append]
      cases k with
      | zero =>
          -- The bodies behind the first one are told with later numbers.
          have hrest : (openings (i + 1) scores table.tail).filter (·.1 = i) = [] := by
            apply List.filter_eq_nil_iff.mpr
            rintro ⟨j, tokens⟩ hmem
            obtain ⟨m, -, rfl, -⟩ := mem_openings_iff.mp hmem
            simp only [decide_eq_true_eq]
            omega
          rw [Nat.add_zero, hrest, List.append_nil, List.filter_map, List.filter_eq_self.mpr]
          · rfl
          · simp
      | succ k =>
          have hfirst := ih (i + 1) k table.tail
          rw [state_tail, Nat.add_right_comm, Nat.add_assoc] at hfirst
          rw [List.filter_map, List.filter_eq_nil_iff.mpr (by simp), hfirst]
          rfl

end LoopTable

namespace Session

omit [Scalar R] in
def voices (s : Session R) (i : Nat) : List (Voice R) :=
  (s.table.loops i).map fun l => ⟨l.key, l.period, s.registry.timers.course? l.handle⟩

omit [Scalar R] in
theorem map_key_voices (s : Session R) (i : Nat) :
    (s.voices i).map Voice.key = (s.table.loops i).map LoopTimer.key :=
  List.map_map

theorem Coherent.course?_of_mem_voices {s : Session R} (hs : s.Coherent) {i : Nat} {v : Voice R}
    (hv : v ∈ s.voices i) : ∃ due, v.course? = some (v.period, due) := by
  obtain ⟨l, hl, rfl⟩ := List.mem_map.mp hv
  obtain ⟨t, ht, hhandle, hperiod⟩ := hs.drives.exists_timer hl
  have hfind := hs.drives.find?_eq_some_iff.mpr ⟨ht, hhandle⟩
  exact ⟨t.nextDue, by rw [Timers.course?, hfind, ← hperiod]; rfl⟩

/-! ## A tick -/

def beginning (s : Session R) (key : RegionKey) (period : R) : Voice R :=
  ⟨key, period, some (period, s.now + period)⟩

theorem voices_tick_of_none {s : Session R} {i : Nat} (h : s.score? i = none) :
    s.tick.2.voices i = [] := by
  rw [voices, LoopTable.loops, state_tick_of_none h]
  rfl

/-- After a tick a paragraph has the voices whose keys are still there, and behind
them those that begin. -/
theorem voices_tick {s : Session R} (hdrives : s.registry.Drives s.table.loops)
    (hafter : s.tick.2.registry.Drives s.tick.2.table.loops) {i : Nat} {p : Paragraph R}
    (hp : s.document[i]? = some p)
    (hwants : s.config.symbols.wantsActivation p.text = true) :
    s.tick.2.voices i =
      ((s.voices i).filter fun v => v.key ∈ (p.regions s.config).map Region.key) ++
      ((p.regions s.config).filter fun r =>
        p.tokensInside s.config r ≠ [] ∧ r.key ∉ (s.voices i).map Voice.key).map fun r =>
          s.beginning r.key (s.config.period (p.tokensInside s.config r)) := by
  obtain ⟨armed, h⟩ := carriesOver_tick hdrives hafter hp hwants
  have hkept : ∀ l ∈ (s.table.loops i).filter fun l => l.key ∈ (p.regions s.config).map Region.key,
      (⟨l.key, l.period, s.tick.2.registry.timers.course? l.handle⟩ : Voice R) =
        ⟨l.key, l.period, s.registry.timers.course? l.handle⟩ := by
    intro l hl
    obtain ⟨hl, hkey⟩ := List.mem_filter.mp hl
    obtain ⟨t, ht, ht', -⟩ := h.find?_kept l hl (of_decide_eq_true hkey)
    rw [Timers.course?, Timers.course?, ht, ht']
  have harmed : ∀ l ∈ armed,
      (⟨l.key, l.period, s.tick.2.registry.timers.course? l.handle⟩ : Voice R) =
        s.beginning l.key l.period := by
    intro l hl
    rw [Timers.course?, (h.find?_armed l hl).2]
    rfl
  have hbegin := congrArg (List.map fun pair => s.beginning pair.1 pair.2) h.armed_eq
  rw [List.map_map, List.map_map] at hbegin
  rw [voices, h.loops_eq, List.map_append, List.map_congr_left hkept, List.map_congr_left harmed,
    map_key_voices, voices, List.filter_map]
  exact congrArg (_ ++ ·) hbegin

theorem tick_fst (s : Session R) : s.tick.1 = (s.table.openings 0 s.scores).map fun body =>
    .telling body.1 .oneShot s.recorder.now body.2 := by
  apply playBodies_fst
  rintro ⟨j, tokens⟩ hmem t ht l hl
  obtain ⟨p, -, -, -, rfl, -⟩ := mem_openings_iff.mp hmem
  exact Token.isLetter_of_mem_ofCells ht hl

theorem filter_tick_fst (s : Session R) (i : Nat) :
    s.tick.1.filter (·.paragraph = i) =
      ((s.table.state i).opening? (s.score? i)).toList.map
        (.telling i .oneShot s.recorder.now) := by
  have hscore : s.scores[i]?.join = s.score? i := by
    rw [getElem?_scores, score?]
    cases s.document[i]? <;> rfl
  have hfilter := LoopTable.filter_openings 0 i s.scores s.table
  rw [Nat.zero_add, hscore] at hfilter
  have hcomp : (fun r : Report R => decide (r.paragraph = i)) ∘
      (fun body : Nat × List (Token R) => .telling body.1 .oneShot s.recorder.now body.2) =
        fun body => decide (body.1 = i) := rfl
  rw [tick_fst, List.filter_map, hcomp, hfilter, List.map_map]
  rfl

/-! ## Firings -/

theorem paragraph_of_loopReport? {s : Session R} {i : Nat} {key : RegionKey} {time : R}
    {r : Report R} (h : s.loopReport? i key time = some r) : r.paragraph = i := by
  obtain ⟨p, -, hp⟩ := Option.bind_eq_some_iff.mp h
  split at hp
  · exact absurd hp (by simp)
  · exact Option.some_inj.mp hp ▸ rfl

/-- What fires in a paragraph is reported as the beats of its own timers tell. -/
theorem filter_reports {s : Session R} (hdrives : s.registry.Drives s.table.loops) (i : Nat)
    (firings : List (Firing R)) :
    (firings.filterMap s.reportOf?).filter (·.paragraph = i) =
      (Timers.beats ((s.table.loops i).map LoopTimer.handle) firings).filterMap fun beat =>
        (s.voices i)[beat.2]?.bind fun v => s.loopReport? i v.key beat.1 := by
  rw [List.filter_filterMap, Timers.beats, List.filterMap_map, List.filterMap_filter]
  apply List.filterMap_congr
  intro f _
  by_cases hhandle : f.handle ∈ (s.table.loops i).map LoopTimer.handle
  · -- The place of the handle is the place of its voice.
    have hplace := List.getElem?_idxOf hhandle
    rw [List.getElem?_map, Option.map_eq_some_iff] at hplace
    obtain ⟨l, hl, heq⟩ := hplace
    have howner : s.registry.owner? f.handle = some ⟨i, l.key⟩ :=
      hdrives.owner?_eq_some_iff.mpr ⟨l, List.mem_of_getElem? hl, heq, rfl⟩
    have hvoice : (s.voices i)[((s.table.loops i).map LoopTimer.handle).idxOf f.handle]? =
        some ⟨l.key, l.period, s.registry.timers.course? l.handle⟩ := by
      rw [voices, List.getElem?_map, hl, Option.map_some]
    have hown : (s.loopReport? i l.key f.due).filter (·.paragraph = i) =
        s.loopReport? i l.key f.due := by
      cases hreport : s.loopReport? i l.key f.due with
      | none => rfl
      | some r => exact Option.filter_some_pos (decide_eq_true (paragraph_of_loopReport? hreport))
    rw [if_pos (decide_eq_true hhandle), reportOf?, howner, Option.bind_some, hown]
    have hbeat := congrArg (Option.bind · fun v => s.loopReport? i v.key f.due) hvoice
    exact hbeat.symm
  · -- Any other handle is reported of another paragraph, if it is reported at all.
    rw [if_neg (by simpa using hhandle), Option.filter_eq_none_iff]
    intro r hr
    obtain ⟨owner, howner, hreport⟩ := Option.bind_eq_some_iff.mp hr
    obtain ⟨l, hl, heq, -⟩ := hdrives.owner?_eq_some_iff.mp howner
    rw [paragraph_of_loopReport? hreport, decide_eq_true_iff]
    rintro rfl
    exact hhandle (List.mem_map.mpr ⟨l, hl, heq⟩)

end Session
end ProseScore
