import Mathlib.Logic.Function.Basic
import ProseScore.Proofs.Timer.Drain
import ProseScore.Proofs.Unique
import ProseScore.Session.LoopTable

/-!
# The registry drives the table

Three things know of a running loop: its paragraph's list in the table, the
timer and the timer's owner.  They are changed one after the other, loop by
loop, and in the end they agree.  The agreement is stated for any assignment of
lists to paragraphs, so that it can be followed through the middle of a change.
-/

namespace ProseScore

variable {R : Type}

namespace Registry

/-- The timers, their owners and the loops of the paragraphs are in agreement. -/
structure Drives (r : Registry R) (loops : Nat → List (LoopTimer R)) : Prop where
  handles_owners : r.owners.map Prod.fst = r.timers.running.map Timer.handle
  increasing : (r.timers.running.map Timer.handle).Pairwise (· < ·)
  issued : ∀ t ∈ r.timers.running, t.handle < r.timers.nextHandle
  mem_owners_iff : ∀ (handle : Nat) (o : Owner), (handle, o) ∈ r.owners ↔
    ∃ l ∈ loops o.paragraph, l.handle = handle ∧ l.key = o.key
  period_eq : ∀ t ∈ r.timers.running, ∀ i, ∀ l ∈ loops i, l.handle = t.handle →
    t.period = l.period
  increasing_loops : ∀ i, ((loops i).map LoopTimer.handle).Pairwise (· < ·)
  nodup_keys : ∀ i, ((loops i).map LoopTimer.key).Nodup

theorem drives_empty [Zero R] : (empty : Registry R).Drives fun _ => [] where
  handles_owners := rfl
  increasing := List.Pairwise.nil
  issued := fun t ht => absurd ht List.not_mem_nil
  mem_owners_iff := by simp [empty]
  period_eq := fun t ht => absurd ht List.not_mem_nil
  increasing_loops := fun _ => List.Pairwise.nil
  nodup_keys := fun _ => List.nodup_nil

namespace Drives

variable {r : Registry R} {loops : Nat → List (LoopTimer R)}

/-! ## What the agreement says of one loop -/

theorem nodup_running (h : r.Drives loops) : (r.timers.running.map Timer.handle).Nodup :=
  h.increasing.imp Nat.ne_of_lt

theorem nodup_owners (h : r.Drives loops) : (r.owners.map Prod.fst).Nodup := by
  rw [h.handles_owners]
  exact h.nodup_running

theorem mem_owners (h : r.Drives loops) {i : Nat} {l : LoopTimer R} (hl : l ∈ loops i) :
    (l.handle, (⟨i, l.key⟩ : Owner)) ∈ r.owners :=
  (h.mem_owners_iff l.handle ⟨i, l.key⟩).mpr ⟨l, hl, rfl, rfl⟩

theorem owner?_eq_some_iff (h : r.Drives loops) {handle : Nat} {o : Owner} :
    r.owner? handle = some o ↔ ∃ l ∈ loops o.paragraph, l.handle = handle ∧ l.key = o.key := by
  rw [owner?, lookup_eq_some_iff_mem h.nodup_owners, h.mem_owners_iff]

theorem find?_eq_some_iff (h : r.Drives loops) {handle : Nat} {t : Timer R} :
    r.timers.find? handle = some t ↔ t ∈ r.timers.running ∧ t.handle = handle :=
  find?_key_eq_some_iff h.nodup_running

theorem mem_handles_iff (h : r.Drives loops) {handle : Nat} :
    handle ∈ r.timers.running.map Timer.handle ↔ ∃ i, ∃ l ∈ loops i, l.handle = handle := by
  rw [← h.handles_owners, List.mem_map]
  constructor
  · rintro ⟨⟨handle', o⟩, ho, rfl⟩
    obtain ⟨l, hl, hhandle, -⟩ := (h.mem_owners_iff handle' o).mp ho
    exact ⟨o.paragraph, l, hl, hhandle⟩
  · rintro ⟨i, l, hl, rfl⟩
    exact ⟨_, h.mem_owners hl, rfl⟩

theorem isSome_owner?_iff (h : r.Drives loops) {handle : Nat} :
    (r.owner? handle).isSome = true ↔ ∃ i, ∃ l ∈ loops i, l.handle = handle := by
  rw [Option.isSome_iff_exists]
  constructor
  · rintro ⟨o, ho⟩
    obtain ⟨l, hl, hhandle, -⟩ := h.owner?_eq_some_iff.mp ho
    exact ⟨o.paragraph, l, hl, hhandle⟩
  · rintro ⟨i, l, hl, hhandle⟩
    exact ⟨⟨i, l.key⟩, h.owner?_eq_some_iff.mpr ⟨l, hl, hhandle, rfl⟩⟩

theorem isSome_find?_iff (h : r.Drives loops) {handle : Nat} :
    (r.timers.find? handle).isSome = true ↔ ∃ i, ∃ l ∈ loops i, l.handle = handle := by
  rw [← h.mem_handles_iff, Timers.find?, List.find?_isSome, List.mem_map]
  simp only [decide_eq_true_eq]

theorem exists_timer (h : r.Drives loops) {i : Nat} {l : LoopTimer R} (hl : l ∈ loops i) :
    ∃ t ∈ r.timers.running, t.handle = l.handle ∧ t.period = l.period := by
  obtain ⟨t, ht, hhandle⟩ := List.mem_map.mp (h.mem_handles_iff.mpr ⟨i, l, hl, rfl⟩)
  exact ⟨t, ht, hhandle, h.period_eq t ht i l hl hhandle.symm⟩

theorem handle_lt (h : r.Drives loops) {i : Nat} {l : LoopTimer R} (hl : l ∈ loops i) :
    l.handle < r.timers.nextHandle := by
  obtain ⟨t, ht, hhandle, -⟩ := h.exists_timer hl
  exact hhandle ▸ h.issued t ht

/-- No two loops share a handle, whatever their paragraphs. -/
theorem eq_of_handle_eq (h : r.Drives loops) {i j : Nat} {l l' : LoopTimer R} (hl : l ∈ loops i)
    (hl' : l' ∈ loops j) (hhandle : l.handle = l'.handle) : i = j ∧ l = l' := by
  have hmem' : (l.handle, (⟨j, l'.key⟩ : Owner)) ∈ r.owners := hhandle ▸ h.mem_owners hl'
  have hpair := List.inj_on_of_nodup_map h.nodup_owners (h.mem_owners hl) hmem' rfl
  obtain ⟨rfl, hkey⟩ : i = j ∧ l.key = l'.key := by simpa using hpair
  exact ⟨rfl, List.inj_on_of_nodup_map (h.nodup_keys i) hl hl' hkey⟩

/-- A handle that belongs to a loop stands in one place only. -/
theorem existsUnique_place (h : r.Drives loops) {i : Nat} {l : LoopTimer R} (hl : l ∈ loops i) :
    ∃! place : Nat × Nat, ∃ l', (loops place.1)[place.2]? = some l' ∧ l'.handle = l.handle := by
  obtain ⟨k, hk⟩ := List.mem_iff_getElem?.mp hl
  refine ⟨(i, k), ⟨l, hk, rfl⟩, ?_⟩
  rintro ⟨j, k'⟩ ⟨l', hk', hhandle⟩
  obtain ⟨rfl, rfl⟩ := h.eq_of_handle_eq (List.mem_of_getElem? hk') hl hhandle
  have hnodup : (loops j).Nodup := List.Nodup.of_map LoopTimer.key (h.nodup_keys j)
  have hlt : k' < (loops j).length := (List.getElem?_eq_some_iff.mp hk').1
  exact Prod.ext rfl ((List.getElem?_inj hlt hnodup).mp (hk'.trans hk.symm))

end Drives

/-! ## Stopping timers -/

theorem owners_releaseAll (r : Registry R) (handles : List Nat) :
    (r.releaseAll handles).owners = r.owners.filter fun o => o.1 ∉ handles := by
  induction handles generalizing r with
  | nil => simp [releaseAll]
  | cons handle handles ih =>
      rw [releaseAll, List.foldl_cons, ← releaseAll, ih, release, List.filter_filter]
      congr 1
      funext o
      simp [Bool.and_comm]

theorem timers_releaseAll (r : Registry R) (handles : List Nat) :
    (r.releaseAll handles).timers = ⟨r.timers.now, r.timers.nextHandle,
      r.timers.running.filter fun t => t.handle ∉ handles⟩ := by
  induction handles generalizing r with
  | nil => simp [releaseAll]
  | cons handle handles ih =>
      rw [releaseAll, List.foldl_cons, ← releaseAll, ih, timers_release, Timers.cancel]
      simp only [List.filter_filter]
      congr 2
      funext t
      simp [Bool.and_comm]

namespace Drives

variable {r : Registry R} {loops : Nat → List (LoopTimer R)}

/-- Stopping timers takes their loops from the paragraphs, wherever they are. -/
theorem releaseAll (h : r.Drives loops) (handles : List Nat) :
    (r.releaseAll handles).Drives fun i => (loops i).filter fun l => l.handle ∉ handles where
  handles_owners := by
    have hfilter := congrArg (List.filter fun handle => handle ∉ handles) h.handles_owners
    rw [List.filter_map, List.filter_map] at hfilter
    rw [owners_releaseAll, timers_releaseAll]
    exact hfilter
  increasing := by
    rw [timers_releaseAll]
    exact h.increasing.sublist (List.filter_sublist.map Timer.handle)
  issued := by
    intro t ht
    rw [timers_releaseAll] at ht ⊢
    exact h.issued t (List.mem_of_mem_filter ht)
  mem_owners_iff := by
    intro handle o
    rw [mem_owners_releaseAll, h.mem_owners_iff]
    constructor
    · rintro ⟨⟨l, hl, rfl, hkey⟩, hnot⟩
      exact ⟨l, List.mem_filter.mpr ⟨hl, decide_eq_true hnot⟩, rfl, hkey⟩
    · rintro ⟨l, hl, rfl, hkey⟩
      obtain ⟨hl, hnot⟩ := List.mem_filter.mp hl
      exact ⟨⟨l, hl, rfl, hkey⟩, of_decide_eq_true hnot⟩
  period_eq := by
    intro t ht i l hl
    rw [timers_releaseAll] at ht
    exact h.period_eq t (List.mem_of_mem_filter ht) i l (List.mem_of_mem_filter hl)
  increasing_loops := fun i =>
    (h.increasing_loops i).sublist (List.filter_sublist.map LoopTimer.handle)
  nodup_keys := fun i => (h.nodup_keys i).sublist (List.filter_sublist.map LoopTimer.key)

/-- Stopping some of the loops of one paragraph leaves all other paragraphs
alone. -/
theorem release_loops (h : r.Drives loops) (i : Nat) (p : LoopTimer R → Bool) :
    (r.releaseAll (((loops i).filter fun l => !p l).map LoopTimer.handle)).Drives
      (Function.update loops i ((loops i).filter p)) := by
  have hrest := h.releaseAll (((loops i).filter fun l => !p l).map LoopTimer.handle)
  convert hrest using 1
  funext j
  by_cases hj : j = i
  · subst hj
    rw [Function.update_self]
    apply List.filter_congr
    intro l hl
    cases hp : p l with
    | true =>
        refine (decide_eq_true ?_).symm
        intro hmem
        obtain ⟨l', hl', hhandle⟩ := List.mem_map.mp hmem
        obtain ⟨hl', hp'⟩ := List.mem_filter.mp hl'
        obtain ⟨-, rfl⟩ := h.eq_of_handle_eq hl' hl hhandle
        rw [hp] at hp'
        exact absurd hp' (by decide)
    | false =>
        refine (decide_eq_false (not_not_intro ?_)).symm
        exact List.mem_map_of_mem (List.mem_filter.mpr ⟨hl, by rw [hp]; rfl⟩)
  · rw [Function.update_of_ne hj]
    refine (List.filter_eq_self.mpr fun l hl => decide_eq_true ?_).symm
    intro hmem
    obtain ⟨l', hl', hhandle⟩ := List.mem_map.mp hmem
    exact hj (h.eq_of_handle_eq (List.mem_of_mem_filter hl') hl hhandle).1.symm

theorem clear (h : r.Drives loops) : r.clear.Drives fun _ => [] := by
  have hall := h.releaseAll (r.owners.map Prod.fst)
  have hnone (i : Nat) :
      ((loops i).filter fun l => l.handle ∉ r.owners.map Prod.fst) = [] := by
    apply List.filter_eq_nil_iff.mpr
    intro l hl
    simpa using ⟨_, h.mem_owners hl⟩
  simp only [hnone] at hall
  exact hall

theorem of_sameTimers (h : r.Drives loops) {timers : Timers R}
    (hsame : r.timers.SameTimers timers) : (⟨timers, r.owners⟩ : Registry R).Drives loops where
  handles_owners := h.handles_owners.trans hsame.handles_eq.symm
  increasing := by
    show (timers.running.map Timer.handle).Pairwise (· < ·)
    rw [hsame.handles_eq]
    exact h.increasing
  issued := by
    intro t ht
    obtain ⟨u, hu, hhandle, -⟩ := hsame.exists_timer ht
    rw [← hhandle, hsame.nextHandle_eq]
    exact h.issued u hu
  mem_owners_iff := h.mem_owners_iff
  period_eq := by
    intro t ht i l hl hhandle
    obtain ⟨u, hu, huhandle, huperiod⟩ := hsame.exists_timer ht
    rw [← huperiod]
    exact h.period_eq u hu i l hl (hhandle.trans huhandle.symm)
  increasing_loops := h.increasing_loops
  nodup_keys := h.nodup_keys

/-! ## Starting timers -/

theorem mem_update_append {loops : Nat → List (LoopTimer R)} {i j : Nat} {l new : LoopTimer R} :
    l ∈ Function.update loops i (loops i ++ [new]) j ↔ l ∈ loops j ∨ j = i ∧ l = new := by
  by_cases hj : j = i
  · subst hj
    simp
  · simp [hj]

/-- A loop that is started comes behind the others of its paragraph. -/
theorem arm [Add R] (h : r.Drives loops) {i : Nat} {key : RegionKey} (period : R)
    (hkey : key ∉ (loops i).map LoopTimer.key) :
    (r.arm period ⟨i, key⟩).2.Drives
      (Function.update loops i (loops i ++ [⟨key, r.timers.nextHandle, period⟩])) where
  handles_owners := by simp [Registry.arm, Timers.start, h.handles_owners]
  increasing := by
    simp only [Registry.arm, Timers.start, List.map_append, List.map_cons, List.map_nil]
    refine List.pairwise_append.mpr ⟨h.increasing, List.pairwise_singleton _ _, ?_⟩
    intro handle hmem handle' hmem'
    obtain ⟨t, ht, rfl⟩ := List.mem_map.mp hmem
    rw [List.mem_singleton.mp hmem']
    exact h.issued t ht
  issued := by
    intro t ht
    rcases Timers.mem_running_start.mp ht with ht | rfl
    · exact Nat.lt_succ_of_lt (h.issued t ht)
    · exact Nat.lt_succ_self _
  mem_owners_iff := by
    intro handle o
    obtain ⟨j, key'⟩ := o
    have hold := h.mem_owners_iff handle ⟨j, key'⟩
    have hmem : (handle, (⟨j, key'⟩ : Owner)) ∈ (r.arm period ⟨i, key⟩).2.owners ↔
        (handle, (⟨j, key'⟩ : Owner)) ∈ r.owners ∨
          handle = r.timers.nextHandle ∧ j = i ∧ key' = key := by
      simp [Registry.arm, Timers.start]
    rw [hmem, hold]
    constructor
    · rintro (⟨l, hl, hhandle, hkey⟩ | ⟨rfl, rfl, rfl⟩)
      · exact ⟨l, mem_update_append.mpr (Or.inl hl), hhandle, hkey⟩
      · exact ⟨_, mem_update_append.mpr (Or.inr ⟨rfl, rfl⟩), rfl, rfl⟩
    · rintro ⟨l, hl, hhandle, hkey⟩
      rcases mem_update_append.mp hl with hl | ⟨hj, rfl⟩
      · exact Or.inl ⟨l, hl, hhandle, hkey⟩
      · exact Or.inr ⟨hhandle.symm, hj, hkey.symm⟩
  period_eq := by
    intro t ht j l hl hhandle
    rcases Timers.mem_running_start.mp ht with ht | rfl
    · rcases mem_update_append.mp hl with hl | ⟨-, rfl⟩
      · exact h.period_eq t ht j l hl hhandle
      · exact absurd hhandle (Nat.ne_of_gt (h.issued t ht))
    · rcases mem_update_append.mp hl with hl | ⟨-, rfl⟩
      · exact absurd hhandle (Nat.ne_of_lt (h.handle_lt hl))
      · rfl
  increasing_loops := by
    intro j
    by_cases hj : j = i
    · subst hj
      rw [Function.update_self, List.map_append]
      refine List.pairwise_append.mpr ⟨h.increasing_loops j, List.pairwise_singleton _ _, ?_⟩
      intro handle hmem handle' hmem'
      obtain ⟨l, hl, rfl⟩ := List.mem_map.mp hmem
      rw [List.mem_singleton.mp hmem']
      exact h.handle_lt hl
    · rw [Function.update_of_ne hj]
      exact h.increasing_loops j
  nodup_keys := by
    intro j
    by_cases hj : j = i
    · subst hj
      rw [Function.update_self, List.map_append]
      refine List.nodup_append.mpr ⟨h.nodup_keys j, List.nodup_singleton _, ?_⟩
      intro key' hmem key'' hmem' heq
      rw [heq, List.mem_singleton.mp hmem'] at hmem
      exact hkey hmem
    · rw [Function.update_of_ne hj]
      exact h.nodup_keys j

variable [Scalar R]

theorem armLoops (h : r.Drives loops) (config : Config R) (i : Nat)
    {fresh : List (RegionKey × List (Token R))} (hnodup : (fresh.map Prod.fst).Nodup)
    (hfresh : ∀ key ∈ fresh.map Prod.fst, key ∉ (loops i).map LoopTimer.key) :
    (r.armLoops config i fresh).2.Drives
      (Function.update loops i (loops i ++ (r.armLoops config i fresh).1)) := by
  induction fresh generalizing r loops with
  | nil =>
      rw [Registry.armLoops, List.append_nil, Function.update_eq_self]
      exact h
  | cons x fresh ih =>
      obtain ⟨key, tokens⟩ := x
      rw [List.map_cons, List.nodup_cons] at hnodup
      have hkey : key ∉ (loops i).map LoopTimer.key := hfresh key List.mem_cons_self
      have harm := h.arm (config.period tokens) hkey
      have hrest := ih harm hnodup.2 (by
        intro key' hkey'
        rw [Function.update_self, List.map_append, List.mem_append, not_or]
        refine ⟨hfresh key' (List.mem_cons_of_mem _ hkey'), ?_⟩
        rw [List.map_singleton, List.mem_singleton]
        rintro rfl
        exact hnodup.1 hkey')
      rw [Function.update_self, Function.update_idem, List.append_assoc] at hrest
      exact hrest

end Drives

end Registry

end ProseScore
