import Mathlib.Data.List.GetD
import ProseScore.Proofs.Session.Drives

/-!
# Following a document

A paragraph that follows its score keeps the loops whose keys are still there,
stops the others and starts what is new behind those it keeps.  A table follows
paragraph by paragraph.  This module says what one paragraph does and what the
whole table comes to: the agreement with the registry is kept, and no timer is
touched but those that are stopped.
-/

namespace ProseScore

variable {R : Type} [Scalar R]

/-! ## Registries at one time -/

/-- The second registry comes of the first one when timers are stopped and others
are started while the clock stands still. -/
structure Registry.LeadsTo (r later : Registry R) : Prop where
  now_eq : later.timers.now = r.timers.now
  nextHandle_le : r.timers.nextHandle ≤ later.timers.nextHandle
  running : ∀ t ∈ later.timers.running, t ∈ r.timers.running ∨
    r.timers.nextHandle ≤ t.handle ∧ t.nextDue = r.timers.now + t.period

namespace Registry.LeadsTo

theorem refl (r : Registry R) : r.LeadsTo r :=
  ⟨rfl, Nat.le_refl _, fun _ ht => Or.inl ht⟩

theorem trans {r₁ r₂ r₃ : Registry R} (h₁ : r₁.LeadsTo r₂) (h₂ : r₂.LeadsTo r₃) :
    r₁.LeadsTo r₃ where
  now_eq := h₂.now_eq.trans h₁.now_eq
  nextHandle_le := Nat.le_trans h₁.nextHandle_le h₂.nextHandle_le
  running := by
    intro t ht
    rcases h₂.running t ht with ht | ⟨hle, hdue⟩
    · exact h₁.running t ht
    · exact Or.inr ⟨Nat.le_trans h₁.nextHandle_le hle, h₁.now_eq ▸ hdue⟩

theorem releaseAll (r : Registry R) (handles : List Nat) : r.LeadsTo (r.releaseAll handles) := by
  have htimers := timers_releaseAll r handles
  have hnow : (r.releaseAll handles).timers.now = r.timers.now := by rw [htimers]
  have hnext : (r.releaseAll handles).timers.nextHandle = r.timers.nextHandle := by rw [htimers]
  exact ⟨hnow, Nat.le_of_eq hnext.symm, fun t ht => Or.inl (mem_running_releaseAll.mp ht).1⟩

theorem arm (r : Registry R) (period : R) (owner : Owner) : r.LeadsTo (r.arm period owner).2 where
  now_eq := rfl
  nextHandle_le := Nat.le_succ _
  running := by
    intro t ht
    rcases Timers.mem_running_start.mp ht with ht | rfl
    · exact Or.inl ht
    · exact Or.inr ⟨Nat.le_refl _, rfl⟩

theorem armLoops (config : Config R) (i : Nat) (r : Registry R)
    (fresh : List (RegionKey × List (Token R))) :
    r.LeadsTo (r.armLoops config i fresh).2 := by
  induction fresh generalizing r with
  | nil => exact refl r
  | cons x fresh ih => exact (arm r _ _).trans (ih _)

end Registry.LeadsTo

/-! ## One paragraph -/

theorem Registry.map_armLoops (config : Config R) (i : Nat) (r : Registry R)
    (fresh : List (RegionKey × List (Token R))) :
    (r.armLoops config i fresh).1.map (fun l => (l.key, l.period)) =
      fresh.map fun (key, tokens) => (key, config.period tokens) := by
  induction fresh generalizing r with
  | nil => rfl
  | cons x fresh ih => rw [Registry.armLoops, List.map_cons, List.map_cons, ih]

theorem Registry.le_handle_armLoops {config : Config R} {i : Nat} {r : Registry R}
    {fresh : List (RegionKey × List (Token R))} {l : LoopTimer R}
    (hl : l ∈ (r.armLoops config i fresh).1) : r.timers.nextHandle ≤ l.handle := by
  induction fresh generalizing r with
  | nil => exact absurd hl List.not_mem_nil
  | cons x fresh ih =>
      rcases List.mem_cons.mp hl with rfl | hl
      · exact Nat.le_refl _
      · exact Nat.le_trans (Registry.LeadsTo.arm r _ _).nextHandle_le (ih hl)

namespace Activity

/-- The loops that keep running under a score. -/
def kept (score : Score R) (a : Activity R) : List (LoopTimer R) :=
  a.loops.filter fun l => score.keys.contains l.key

/-- The loops that a score stops. -/
def gone (score : Score R) (a : Activity R) : List (LoopTimer R) :=
  a.loops.filter fun l => !score.keys.contains l.key

/-- What a score has started, in textual order. -/
def fresh (score : Score R) (a : Activity R) : List (RegionKey × List (Token R)) :=
  score.loops.filter fun (key, tokens) =>
    !tokens.isEmpty && !(a.kept score).any (·.key = key)

/-- The loops that a score starts, and the registry behind them. -/
def armed (config : Config R) (i : Nat) (score : Score R) (a : Activity R) (r : Registry R) :
    List (LoopTimer R) × Registry R :=
  (r.releaseAll ((a.gone score).map LoopTimer.handle)).armLoops config i (a.fresh score)

theorem follow_some (config : Config R) (i : Nat) (score : Score R) (a : Activity R)
    (r : Registry R) :
    a.follow config i (some score) r =
      (active (a.kept score ++ (a.armed config i score r).1), (a.armed config i score r).2) := by
  rw [follow, List.partition_eq_filter_filter]
  rfl

theorem leadsTo_follow (config : Config R) (i : Nat) (score? : Option (Score R)) (a : Activity R)
    (r : Registry R) : r.LeadsTo (a.follow config i score? r).2 := by
  cases score? with
  | none => exact Registry.LeadsTo.releaseAll r _
  | some score =>
      rw [follow_some]
      exact (Registry.LeadsTo.releaseAll r _).trans (Registry.LeadsTo.armLoops config i _ _)

theorem le_handle_armed {config : Config R} {i : Nat} {score : Score R} {a : Activity R}
    {r : Registry R} {l : LoopTimer R} (hl : l ∈ (a.armed config i score r).1) :
    r.timers.nextHandle ≤ l.handle :=
  Nat.le_trans (Registry.LeadsTo.releaseAll r _).nextHandle_le (Registry.le_handle_armLoops hl)

omit [Scalar R] in
/-- What is started has keys of its own. -/
theorem not_mem_kept_of_mem_fresh {score : Score R} {a : Activity R} {key : RegionKey}
    (h : key ∈ (a.fresh score).map Prod.fst) : key ∉ (a.kept score).map LoopTimer.key := by
  obtain ⟨⟨key', tokens⟩, hx, rfl⟩ := List.mem_map.mp h
  have hnot := (List.mem_filter.mp hx).2
  intro hmem
  obtain ⟨l, hl, hkey⟩ := List.mem_map.mp hmem
  rw [Bool.and_eq_true, Bool.not_eq_true', Bool.not_eq_true', List.any_eq_false] at hnot
  exact hnot.2 l hl (decide_eq_true hkey)

end Activity

/-- A paragraph that follows its score stays in agreement with the registry. -/
theorem Registry.Drives.activity_follow {r : Registry R} {loops : Nat → List (LoopTimer R)}
    (h : r.Drives loops) (config : Config R) {i : Nat} {a : Activity R} (ha : a.loops = loops i)
    {score? : Option (Score R)} (hkeys : ∀ score ∈ score?, score.keys.Nodup) :
    (a.follow config i score? r).2.Drives
      (Function.update loops i (a.follow config i score? r).1.loops) := by
  cases score? with
  | none =>
      have hall := h.release_loops i fun _ => false
      simp only [Bool.not_false, List.filter_true, List.filter_false] at hall
      rw [Activity.follow, ha]
      exact hall
  | some score =>
      have hkept := h.release_loops i fun l => score.keys.contains l.key
      have hnodup : ((a.fresh score).map Prod.fst).Nodup :=
        (hkeys score rfl).sublist (List.filter_sublist.map Prod.fst)
      have harmed := hkept.armLoops config i hnodup (by
        intro key hkey
        rw [Function.update_self, ← ha]
        exact Activity.not_mem_kept_of_mem_fresh hkey)
      rw [Function.update_self, Function.update_idem, ← ha] at harmed
      rw [Activity.follow_some]
      exact harmed

/-! ## The whole table -/

namespace LoopTable

omit [Scalar R] in
theorem state_append_of_lt {done table : LoopTable R} {i : Nat} (h : i < done.length) :
    (done ++ table : LoopTable R).state i = done.state i :=
  List.getD_append done table .idle i h

omit [Scalar R] in
theorem state_append_of_le {done table : LoopTable R} {i : Nat} (h : done.length ≤ i) :
    (done ++ table : LoopTable R).state i = table.state (i - done.length) :=
  List.getD_append_right done table .idle i h

omit [Scalar R] in
theorem state_of_length_le {table : LoopTable R} {i : Nat} (h : table.length ≤ i) :
    table.state i = .idle :=
  List.getD_eq_default table .idle h

omit [Scalar R] in
theorem state_tail (table : LoopTable R) (i : Nat) :
    LoopTable.state table.tail i = table.state (i + 1) := by
  cases table <;> rfl

omit [Scalar R] in
theorem isActive_of_mem_loops {table : LoopTable R} {i : Nat} {l : LoopTimer R}
    (hl : l ∈ table.loops i) : (table.state i).isActive = true := by
  rw [loops] at hl
  cases hstate : table.state i with
  | idle =>
      rw [hstate] at hl
      exact absurd hl List.not_mem_nil
  | active loops => rfl

omit [Scalar R] in
theorem mem_handles_iff {table : LoopTable R} {handle : Nat} :
    handle ∈ table.handles ↔ ∃ i, ∃ l ∈ table.loops i, l.handle = handle := by
  rw [handles, List.mem_flatMap]
  constructor
  · rintro ⟨a, ha, hmem⟩
    obtain ⟨l, hl, hhandle⟩ := List.mem_map.mp hmem
    obtain ⟨i, hi, rfl⟩ := List.mem_iff_getElem.mp ha
    refine ⟨i, l, ?_, hhandle⟩
    rwa [loops, state, List.getD_eq_getElem table .idle hi]
  · rintro ⟨i, l, hl, hhandle⟩
    rcases Nat.lt_or_ge i table.length with hi | hi
    · rw [loops, state, List.getD_eq_getElem table .idle hi] at hl
      exact ⟨table[i], List.getElem_mem hi, List.mem_map.mpr ⟨l, hl, hhandle⟩⟩
    · rw [loops, state_of_length_le hi] at hl
      exact absurd hl List.not_mem_nil

omit [Scalar R] in
/-- Replacing the first paragraph of what is left of a table changes the loops of
that paragraph only. -/
theorem loops_replace (done table : LoopTable R) (a : Activity R) :
    LoopTable.loops ((done ++ [a]) ++ table.tail : LoopTable R) =
      Function.update (LoopTable.loops (done ++ table : LoopTable R)) done.length a.loops := by
  funext i
  rcases Nat.lt_trichotomy i done.length with hi | rfl | hi
  · have hi' : i < (done ++ [a]).length := by
      rw [List.length_append]
      exact Nat.lt_add_right 1 hi
    rw [Function.update_of_ne (Nat.ne_of_lt hi), loops, loops, state_append_of_lt hi',
      state_append_of_lt hi, state_append_of_lt hi]
  · rw [Function.update_self, loops, state_append_of_lt (by simp), state_append_of_le (by simp),
      Nat.sub_self]
    rfl
  · obtain ⟨k, rfl⟩ := Nat.exists_eq_add_of_lt hi
    have hsub : done.length + k + 1 - (done ++ [a]).length = k := by
      rw [List.length_append, List.length_singleton]
      omega
    have hsub' : done.length + k + 1 - done.length = k + 1 := by omega
    rw [Function.update_of_ne (Nat.ne_of_gt hi), loops, loops, state_append_of_le (by simp),
      state_append_of_le (Nat.le_of_lt hi), hsub, hsub', state_tail]

theorem leadsTo_follow (config : Config R) (i : Nat) (scores : List (Option (Score R)))
    (table : LoopTable R) (r : Registry R) :
    r.LeadsTo (follow config i scores table r).2 := by
  induction scores generalizing i table r with
  | nil => exact Registry.LeadsTo.releaseAll r _
  | cons score? scores ih =>
      exact (Activity.leadsTo_follow config i score? _ r).trans (ih (i + 1) _ _)

/-- Each paragraph follows its score on its own, from some registry that has come
about on the way. -/
theorem state_follow (config : Config R) (i : Nat) {scores : List (Option (Score R))}
    (table : LoopTable R) (r : Registry R) {j : Nat} {score? : Option (Score R)}
    (hj : scores[j]? = some score?) :
    ∃ later, r.LeadsTo later ∧ (follow config i scores table r).1.state j =
      ((table.state j).follow config (i + j) score? later).1 := by
  induction scores generalizing i table r j with
  | nil => simp at hj
  | cons first scores ih =>
      cases j with
      | zero =>
          obtain rfl : first = score? := by simpa using hj
          exact ⟨r, Registry.LeadsTo.refl r, rfl⟩
      | succ j =>
          obtain ⟨later, hlater, hstate⟩ := ih (i + 1) table.tail
            ((table.state 0).follow config i first r).2 (j := j) hj
          refine ⟨later, (Activity.leadsTo_follow config i first _ r).trans hlater, ?_⟩
          rw [state_tail, Nat.add_right_comm, Nat.add_assoc] at hstate
          exact hstate

theorem state_follow_of_none (config : Config R) (i : Nat) {scores : List (Option (Score R))}
    (table : LoopTable R) (r : Registry R) {j : Nat} (hj : scores[j]? = none) :
    (follow config i scores table r).1.state j = .idle := by
  apply state_of_length_le
  rw [length_follow]
  exact List.getElem?_eq_none_iff.mp hj

end LoopTable

/-- A table that follows its scores stays in agreement with the registry.  The
paragraphs in `done` have been looked after before. -/
theorem Registry.Drives.follow {r : Registry R} (done : LoopTable R) {table : LoopTable R}
    (h : r.Drives (LoopTable.loops (done ++ table : LoopTable R))) (config : Config R)
    {scores : List (Option (Score R))} (hkeys : ∀ score, some score ∈ scores → score.keys.Nodup) :
    (LoopTable.follow config done.length scores table r).2.Drives
      (LoopTable.loops (done ++ (LoopTable.follow config done.length scores table r).1)) := by
  induction scores generalizing r done table with
  | nil =>
      have hrest := h.releaseAll table.handles
      rw [LoopTable.follow, List.append_nil]
      convert hrest using 1
      funext i
      rcases Nat.lt_or_ge i done.length with hi | hi
      · have hsame : LoopTable.loops (done ++ table : LoopTable R) i = done.loops i := by
          rw [LoopTable.loops, LoopTable.state_append_of_lt hi, LoopTable.loops]
        rw [← hsame]
        refine (List.filter_eq_self.mpr fun l hl => decide_eq_true ?_).symm
        intro hmem
        obtain ⟨j, l', hl', hhandle⟩ := LoopTable.mem_handles_iff.mp hmem
        have hlater : l' ∈ LoopTable.loops (done ++ table : LoopTable R) (done.length + j) := by
          rw [LoopTable.loops, LoopTable.state_append_of_le (Nat.le_add_right _ _),
            Nat.add_sub_cancel_left]
          exact hl'
        have hij := (h.eq_of_handle_eq hl hlater hhandle.symm).1
        omega
      · have hidle : done.loops i = [] := by
          rw [LoopTable.loops, LoopTable.state_of_length_le hi]
          rfl
        rw [hidle]
        refine (List.filter_eq_nil_iff.mpr fun l hl => ?_).symm
        rw [LoopTable.loops, LoopTable.state_append_of_le hi] at hl
        simpa using LoopTable.mem_handles_iff.mpr ⟨_, l, hl, rfl⟩
  | cons score? scores ih =>
      have hfirst : (table.state 0).loops =
          LoopTable.loops (done ++ table : LoopTable R) done.length := by
        rw [LoopTable.loops, LoopTable.state_append_of_le (Nat.le_refl _), Nat.sub_self]
      have hone := h.activity_follow config hfirst fun score hscore =>
        hkeys score (Option.mem_def.mp hscore ▸ List.mem_cons_self)
      rw [← LoopTable.loops_replace] at hone
      have hall := ih _ hone fun score hscore => hkeys score (List.mem_cons_of_mem _ hscore)
      rw [List.length_append, List.append_assoc] at hall
      exact hall

end ProseScore
