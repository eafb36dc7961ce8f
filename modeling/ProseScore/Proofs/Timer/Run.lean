import Mathlib.Algebra.Order.Ring.Rat
import ProseScore.Proofs.Timer.Drain
import ProseScore.Proofs.Timer.Order
import ProseScore.Proofs.Unique
import ProseScore.Scalar.Exact

/-!
# Timers in use

A host starts and cancels timers, asks for firings and moves the clock, in any
order.  Whatever it does, no firing comes before an earlier one: the clock and all
timers have come up to the last firing, and what is started later starts from
there.
-/

namespace ProseScore

/-- What a host can ask of timers. -/
inductive TimerCommand (τ : Type) where
  | start (period : τ)
  | cancel (handle : Nat)
  /-- The next firing at or before a time. -/
  | pop (horizon : τ)
  | advanceTo (time : τ)

/-- The command starts no timer that would go back in time. -/
def TimerCommand.IsForward {τ : Type} [LE τ] [Zero τ] : TimerCommand τ → Prop
  | start period => 0 ≤ period
  | _ => True

instance {τ : Type} [LE τ] [Zero τ] [DecidableLE τ] :
    (c : TimerCommand τ) → Decidable c.IsForward
  | .start period => inferInstanceAs (Decidable (0 ≤ period))
  | .cancel _ => inferInstanceAs (Decidable True)
  | .pop _ => inferInstanceAs (Decidable True)
  | .advanceTo _ => inferInstanceAs (Decidable True)

inductive TimerOutcome (τ : Type) where
  | started (handle : Nat)
  | popped (firing : Option (Firing τ))
  /-- To a cancellation and to a move of the clock. -/
  | done

namespace TimerOutcome

variable {τ : Type}

def handle? : TimerOutcome τ → Option Nat
  | started handle => some handle
  | _ => none

def firing? : TimerOutcome τ → Option (Firing τ)
  | popped firing => firing
  | _ => none

end TimerOutcome

namespace Timers

variable {τ : Type} [LinearOrder τ]

variable [Add τ]

def step (ts : Timers τ) : TimerCommand τ → TimerOutcome τ × Timers τ
  | .start period => (.started (ts.start period).1, (ts.start period).2)
  | .cancel handle => (.done, ts.cancel handle)
  | .pop horizon =>
    match ts.pop? horizon with
    | none => (.popped none, ts)
    | some (firing, ts) => (.popped (some firing), ts)
  | .advanceTo time => (.done, ts.advanceTo time)

def run (ts : Timers τ) (commands : List (TimerCommand τ)) : Timers τ :=
  commands.foldl (fun ts c => (ts.step c).2) ts

def outcomes : Timers τ → List (TimerCommand τ) → List (TimerOutcome τ)
  | _, [] => []
  | ts, c :: cs => (ts.step c).1 :: (ts.step c).2.outcomes cs

/-- The handles of the timers that commands have started, in their order. -/
def handlesOf (ts : Timers τ) (commands : List (TimerCommand τ)) : List Nat :=
  (ts.outcomes commands).filterMap TimerOutcome.handle?

/-- The firings that commands have brought, in their order. -/
def firingsOf (ts : Timers τ) (commands : List (TimerCommand τ)) : List (Firing τ) :=
  (ts.outcomes commands).filterMap TimerOutcome.firing?

theorem handlesOf_cons (ts : Timers τ) (c : TimerCommand τ) (cs : List (TimerCommand τ)) :
    ts.handlesOf (c :: cs) = (ts.step c).1.handle?.toList ++ (ts.step c).2.handlesOf cs := by
  rw [handlesOf, outcomes, List.filterMap_cons, handlesOf]
  cases (ts.step c).1.handle? <;> rfl

theorem firingsOf_cons (ts : Timers τ) (c : TimerCommand τ) (cs : List (TimerCommand τ)) :
    ts.firingsOf (c :: cs) = (ts.step c).1.firing?.toList ++ (ts.step c).2.firingsOf cs := by
  rw [firingsOf, outcomes, List.filterMap_cons, firingsOf]
  cases (ts.step c).1.firing? <;> rfl

theorem mem_handlesOf_cons {ts : Timers τ} {c : TimerCommand τ} {cs : List (TimerCommand τ)}
    {handle : Nat} : handle ∈ ts.handlesOf (c :: cs) ↔
      (ts.step c).1.handle? = some handle ∨ handle ∈ (ts.step c).2.handlesOf cs := by
  rw [handlesOf_cons, List.mem_append, Option.mem_toList]

theorem mem_firingsOf_cons {ts : Timers τ} {c : TimerCommand τ} {cs : List (TimerCommand τ)}
    {f : Firing τ} : f ∈ ts.firingsOf (c :: cs) ↔
      (ts.step c).1.firing? = some f ∨ f ∈ (ts.step c).2.firingsOf cs := by
  rw [firingsOf_cons, List.mem_append, Option.mem_toList]

theorem run_append (ts : Timers τ) (cs ds : List (TimerCommand τ)) :
    ts.run (cs ++ ds) = (ts.run cs).run ds :=
  List.foldl_append

/-- A command starts a timer, takes timers away, moves the clock forward, or fires
the timer that comes first. -/
theorem step_cases (ts : Timers τ) (c : TimerCommand τ) :
    (∃ period, c = .start period ∧ ts.step c = (.started ts.nextHandle, (ts.start period).2)) ∨
    (∃ handle, c = .cancel handle ∧ ts.step c = (.done, ts.cancel handle)) ∨
    (∃ outcome time, outcome.handle? = none ∧ outcome.firing? = none ∧
      ts.step c = (outcome, ts.advanceTo time)) ∨
    ∃ horizon t, ts.due? horizon = some t ∧ ts.step c = (.popped (some t.next), ts.fire t) := by
  cases c with
  | start period => exact Or.inl ⟨period, rfl, rfl⟩
  | cancel handle => exact Or.inr (Or.inl ⟨handle, rfl, rfl⟩)
  | pop horizon =>
      cases hdue : ts.due? horizon with
      | none =>
          refine Or.inr (Or.inr (Or.inl ⟨.popped none, ts.now, rfl, rfl, ?_⟩))
          rw [step, pop?, hdue, advanceTo, if_neg (lt_irrefl _)]
          rfl
      | some t =>
          refine Or.inr (Or.inr (Or.inr ⟨horizon, t, hdue, ?_⟩))
          rw [step, pop?, hdue]
          rfl
  | advanceTo time => exact Or.inr (Or.inr (Or.inl ⟨.done, time, rfl, rfl, rfl⟩))

/-- A firing is that of the timer that comes first. -/
theorem exists_due?_of_firing? {ts : Timers τ} {c : TimerCommand τ} {f : Firing τ}
    (h : (ts.step c).1.firing? = some f) :
    ∃ horizon t, ts.due? horizon = some t ∧ f = t.next ∧ (ts.step c).2 = ts.fire t := by
  rcases ts.step_cases c with ⟨period, -, hstep⟩ | ⟨handle, -, hstep⟩ |
    ⟨outcome, time, -, hnone, hstep⟩ | ⟨horizon, t, hdue, hstep⟩
  · rw [hstep] at h
    exact absurd h (Option.some_ne_none f).symm
  · rw [hstep] at h
    exact absurd h (Option.some_ne_none f).symm
  · rw [hstep] at h
    exact absurd (hnone.symm.trans h) (Option.some_ne_none f).symm
  · rw [hstep] at h ⊢
    exact ⟨horizon, t, hdue, (Option.some_inj.mp h).symm, rfl⟩

/-! ## The clock and the handles -/

theorem now_le_step (ts : Timers τ) (c : TimerCommand τ) : ts.now ≤ (ts.step c).2.now := by
  rcases ts.step_cases c with ⟨period, -, hstep⟩ | ⟨handle, -, hstep⟩ |
    ⟨outcome, time, -, -, hstep⟩ | ⟨horizon, t, -, hstep⟩
  · exact (congrArg (·.2.now) hstep).ge
  · exact (congrArg (·.2.now) hstep).ge
  · rw [hstep]
    exact now_le_advanceTo ts time
  · rw [hstep]
    exact now_le_advanceTo _ t.nextDue

theorem now_le_run (ts : Timers τ) (commands : List (TimerCommand τ)) :
    ts.now ≤ (ts.run commands).now := by
  induction commands generalizing ts with
  | nil => exact le_refl _
  | cons c cs ih => exact (now_le_step ts c).trans (ih (ts.step c).2)

theorem nextHandle_le_step (ts : Timers τ) (c : TimerCommand τ) :
    ts.nextHandle ≤ (ts.step c).2.nextHandle := by
  rcases ts.step_cases c with ⟨period, -, hstep⟩ | ⟨handle, -, hstep⟩ |
    ⟨outcome, time, -, -, hstep⟩ | ⟨horizon, t, -, hstep⟩
  · rw [hstep]
    exact Nat.le_succ _
  · exact (congrArg (·.2.nextHandle) hstep).ge
  · exact (congrArg (·.2.nextHandle) hstep).ge
  · exact (congrArg (·.2.nextHandle) hstep).ge

/-- A started timer takes the next handle, and no later one will. -/
theorem eq_nextHandle_of_handle? {ts : Timers τ} {c : TimerCommand τ} {handle : Nat}
    (h : (ts.step c).1.handle? = some handle) :
    handle = ts.nextHandle ∧ (ts.step c).2.nextHandle = handle + 1 := by
  rcases ts.step_cases c with ⟨period, -, hstep⟩ | ⟨other, -, hstep⟩ |
    ⟨outcome, time, hnone, -, hstep⟩ | ⟨horizon, t, -, hstep⟩
  · rw [hstep] at h ⊢
    obtain rfl : ts.nextHandle = handle := Option.some_inj.mp h
    exact ⟨rfl, rfl⟩
  · rw [hstep] at h
    exact absurd h (Option.some_ne_none handle).symm
  · rw [hstep] at h
    exact absurd (hnone.symm.trans h) (Option.some_ne_none handle).symm
  · rw [hstep] at h
    exact absurd h (Option.some_ne_none handle).symm

theorem nextHandle_le_run (ts : Timers τ) (commands : List (TimerCommand τ)) :
    ts.nextHandle ≤ (ts.run commands).nextHandle := by
  induction commands generalizing ts with
  | nil => exact le_refl _
  | cons c cs ih => exact (nextHandle_le_step ts c).trans (ih (ts.step c).2)

theorem nextHandle_le_of_mem_handlesOf {ts : Timers τ} {commands : List (TimerCommand τ)}
    {handle : Nat} (h : handle ∈ ts.handlesOf commands) : ts.nextHandle ≤ handle := by
  induction commands generalizing ts with
  | nil => exact absurd h List.not_mem_nil
  | cons c cs ih =>
      rcases mem_handlesOf_cons.mp h with h | h
      · exact (eq_nextHandle_of_handle? h).1.ge
      · exact (nextHandle_le_step ts c).trans (ih h)

theorem lt_nextHandle_of_mem_handlesOf {ts : Timers τ} {commands : List (TimerCommand τ)}
    {handle : Nat} (h : handle ∈ ts.handlesOf commands) :
    handle < (ts.run commands).nextHandle := by
  induction commands generalizing ts with
  | nil => exact absurd h List.not_mem_nil
  | cons c cs ih =>
      rcases mem_handlesOf_cons.mp h with h | h
      · have hle := nextHandle_le_run (ts.step c).2 cs
        rw [(eq_nextHandle_of_handle? h).2] at hle
        exact hle
      · exact ih h

theorem pairwise_handlesOf (ts : Timers τ) (commands : List (TimerCommand τ)) :
    (ts.handlesOf commands).Pairwise (· < ·) := by
  induction commands generalizing ts with
  | nil => exact List.Pairwise.nil
  | cons c cs ih =>
      rw [handlesOf_cons]
      cases hstep : (ts.step c).1.handle? with
      | none => exact ih _
      | some handle =>
          refine List.pairwise_cons.mpr ⟨fun later hlater => ?_, ih _⟩
          have hle := nextHandle_le_of_mem_handlesOf hlater
          rw [(eq_nextHandle_of_handle? hstep).2] at hle
          exact hle

/-- A timer that runs has run before, or the command has started it. -/
theorem handle_of_mem_step {ts : Timers τ} {c : TimerCommand τ} {t : Timer τ}
    (ht : t ∈ (ts.step c).2.running) :
    t.handle ∈ ts.running.map Timer.handle ∨ (ts.step c).1.handle? = some t.handle := by
  rcases ts.step_cases c with ⟨period, -, hstep⟩ | ⟨other, -, hstep⟩ |
    ⟨outcome, time, -, -, hstep⟩ | ⟨horizon, first, -, hstep⟩
  · rw [hstep] at ht ⊢
    rcases mem_running_start.mp ht with hold | rfl
    · exact Or.inl (List.mem_map_of_mem hold)
    · exact Or.inr rfl
  · rw [hstep] at ht
    exact Or.inl (List.mem_map_of_mem (mem_running_cancel.mp ht).1)
  · rw [hstep] at ht
    exact Or.inl (List.mem_map_of_mem ht)
  · rw [hstep] at ht
    exact Or.inl ((SameTimers.fire ts first).handles_eq ▸ List.mem_map_of_mem ht)

theorem handle_of_mem_run {ts : Timers τ} {commands : List (TimerCommand τ)} {t : Timer τ}
    (ht : t ∈ (ts.run commands).running) :
    t.handle ∈ ts.running.map Timer.handle ∨ t.handle ∈ ts.handlesOf commands := by
  induction commands generalizing ts with
  | nil => exact Or.inl (List.mem_map_of_mem ht)
  | cons c cs ih =>
      rw [mem_handlesOf_cons]
      have hnext : t ∈ ((ts.step c).2.run cs).running := ht
      rcases ih hnext with hrunning | hlater
      · obtain ⟨u, hu, hhandle⟩ := List.mem_map.mp hrunning
        rw [← hhandle]
        exact (handle_of_mem_step hu).imp_right Or.inl
      · exact Or.inr (Or.inr hlater)

/-! ## Stopped timers -/

omit [LinearOrder τ] [Add τ] in
theorem cancel_eq_self {handle : Nat} {ts : Timers τ}
    (h : ∀ t ∈ ts.running, t.handle ≠ handle) : ts.cancel handle = ts := by
  have hrunning : ts.running.filter (·.handle ≠ handle) = ts.running :=
    List.filter_eq_self.mpr fun t ht => decide_eq_true (h t ht)
  rw [cancel, hrunning]

/-- No timer has the handle, and none will. -/
structure Gone (handle : Nat) (ts : Timers τ) : Prop where
  issued : handle < ts.nextHandle
  ne : ∀ t ∈ ts.running, t.handle ≠ handle

omit [LinearOrder τ] [Add τ] in
theorem Gone.of_sameTimers {handle : Nat} {ts later : Timers τ} (h : Gone handle ts)
    (hsame : ts.SameTimers later) : Gone handle later where
  issued := by
    rw [hsame.nextHandle_eq]
    exact h.issued
  ne := by
    intro t ht
    obtain ⟨u, hu, hhandle, -⟩ := hsame.exists_timer ht
    exact hhandle ▸ h.ne u hu

omit [LinearOrder τ] [Add τ] in
theorem gone_cancel {handle : Nat} {ts : Timers τ} (h : handle < ts.nextHandle) :
    Gone handle (ts.cancel handle) :=
  ⟨h, fun _ ht => (mem_running_cancel.mp ht).2⟩

theorem Gone.step {handle : Nat} {ts : Timers τ} (h : Gone handle ts) (c : TimerCommand τ) :
    Gone handle (ts.step c).2 := by
  rcases ts.step_cases c with ⟨period, -, hstep⟩ | ⟨other, -, hstep⟩ |
    ⟨outcome, time, -, -, hstep⟩ | ⟨horizon, t, -, hstep⟩
  · rw [hstep]
    refine ⟨Nat.lt_succ_of_lt h.issued, fun t ht => ?_⟩
    rcases mem_running_start.mp ht with ht | rfl
    · exact h.ne t ht
    · exact (Nat.ne_of_lt h.issued).symm
  · rw [hstep]
    exact ⟨h.issued, fun t ht => h.ne t (mem_running_cancel.mp ht).1⟩
  · rw [hstep]
    exact h.of_sameTimers (SameTimers.advanceTo ts time)
  · rw [hstep]
    exact h.of_sameTimers (SameTimers.fire ts t)

theorem Gone.ne_of_firing? {handle : Nat} {ts : Timers τ} (h : Gone handle ts)
    {c : TimerCommand τ} {f : Firing τ} (hf : (ts.step c).1.firing? = some f) :
    f.handle ≠ handle := by
  obtain ⟨horizon, t, hdue, rfl, -⟩ := exists_due?_of_firing? hf
  exact h.ne t (mem_running_of_due? hdue).1

theorem Gone.ne_of_mem_firingsOf {handle : Nat} {ts : Timers τ} (h : Gone handle ts)
    {commands : List (TimerCommand τ)} {f : Firing τ} (hf : f ∈ ts.firingsOf commands) :
    f.handle ≠ handle := by
  induction commands generalizing ts with
  | nil => exact absurd hf List.not_mem_nil
  | cons c cs ih =>
      rcases mem_firingsOf_cons.mp hf with hf | hf
      · exact h.ne_of_firing? hf
      · exact ih (h.step c) hf

/-! ## The order of firings -/

/-- The clock and every timer have come up to a firing. -/
structure After (f : Firing τ) (ts : Timers τ) : Prop where
  issued : f.handle < ts.nextHandle
  due_le_now : f.due ≤ ts.now
  key_le : ∀ t ∈ ts.running, f.key ≤ t.next.key

theorem After.key_le_of_firing? {ts : Timers τ} {f g : Firing τ} (hf : After f ts)
    {c : TimerCommand τ} (hg : (ts.step c).1.firing? = some g) : f.key ≤ g.key := by
  obtain ⟨horizon, t, hdue, rfl, -⟩ := exists_due?_of_firing? hg
  exact hf.key_le t (mem_running_of_due? hdue).1

variable [Zero τ]

/-- The handles grow from timer to timer and are behind the next one, and no
period is negative. -/
structure Orderly (ts : Timers τ) : Prop where
  increasing : (ts.running.map Timer.handle).Pairwise (· < ·)
  issued : ∀ t ∈ ts.running, t.handle < ts.nextHandle
  nonneg : ∀ t ∈ ts.running, 0 ≤ t.period

omit [Add τ] in
theorem orderly_empty : (empty : Timers τ).Orderly :=
  ⟨List.Pairwise.nil, fun _ ht => absurd ht List.not_mem_nil,
    fun _ ht => absurd ht List.not_mem_nil⟩

omit [Add τ] in
theorem Orderly.of_sameTimers {ts later : Timers τ} (h : ts.Orderly)
    (hsame : ts.SameTimers later) : later.Orderly where
  increasing := by
    rw [hsame.handles_eq]
    exact h.increasing
  issued := by
    intro t ht
    obtain ⟨u, hu, hhandle, -⟩ := hsame.exists_timer ht
    rw [← hhandle, hsame.nextHandle_eq]
    exact h.issued u hu
  nonneg := by
    intro t ht
    obtain ⟨u, hu, -, hperiod⟩ := hsame.exists_timer ht
    exact hperiod ▸ h.nonneg u hu

theorem Orderly.step {ts : Timers τ} (h : ts.Orderly) {c : TimerCommand τ}
    (hc : c.IsForward) : (ts.step c).2.Orderly := by
  rcases ts.step_cases c with ⟨period, rfl, hstep⟩ | ⟨handle, rfl, hstep⟩ |
    ⟨outcome, time, -, -, hstep⟩ | ⟨horizon, t, -, hstep⟩
  · rw [hstep]
    refine ⟨?_, fun t ht => ?_, fun t ht => ?_⟩
    · rw [start, List.map_append]
      refine List.pairwise_append.mpr ⟨h.increasing, List.pairwise_singleton _ _, ?_⟩
      intro handle hmem handle' hmem'
      obtain ⟨t, ht, rfl⟩ := List.mem_map.mp hmem
      rw [List.mem_singleton.mp hmem']
      exact h.issued t ht
    · rcases mem_running_start.mp ht with ht | rfl
      · exact Nat.lt_succ_of_lt (h.issued t ht)
      · exact Nat.lt_succ_self _
    · rcases mem_running_start.mp ht with ht | rfl
      · exact h.nonneg t ht
      · exact hc
  · rw [hstep]
    refine ⟨h.increasing.sublist (List.filter_sublist.map Timer.handle), fun t ht => ?_,
      fun t ht => ?_⟩
    · exact h.issued t (mem_running_cancel.mp ht).1
    · exact h.nonneg t (mem_running_cancel.mp ht).1
  · rw [hstep]
    exact h.of_sameTimers (SameTimers.advanceTo ts time)
  · rw [hstep]
    exact h.of_sameTimers (SameTimers.fire ts t)

section Forward

variable (hadd : ∀ t p : τ, 0 ≤ p → t ≤ t + p)
include hadd

/-- A firing takes no timer back. -/
theorem Orderly.exists_key_le_of_mem_fire {ts : Timers τ} (h : ts.Orderly) {t u : Timer τ}
    (hu : u ∈ (ts.fire t).running) : ∃ v ∈ ts.running, v.next.key ≤ u.next.key := by
  obtain ⟨v, hv, rfl⟩ := List.mem_map.mp hu
  refine ⟨v, hv, ?_⟩
  split
  · have hle : v.nextDue ≤ v.again.nextDue := hadd _ _ (h.nonneg v hv)
    exact Firing.key_le_key_iff.mpr ((lt_or_eq_of_le hle).imp_right fun heq => ⟨heq, le_refl _⟩)
  · exact le_refl _

theorem After.step {ts : Timers τ} (h : ts.Orderly) {f : Firing τ} (hf : After f ts)
    {c : TimerCommand τ} (hc : c.IsForward) : After f (ts.step c).2 := by
  have hnow : f.due ≤ (ts.step c).2.now := hf.due_le_now.trans (now_le_step ts c)
  rcases ts.step_cases c with ⟨period, rfl, hstep⟩ | ⟨handle, rfl, hstep⟩ |
    ⟨outcome, time, -, -, hstep⟩ | ⟨horizon, t, -, hstep⟩
  · rw [hstep] at hnow ⊢
    refine ⟨Nat.lt_succ_of_lt hf.issued, hnow, fun t ht => ?_⟩
    rcases mem_running_start.mp ht with ht | rfl
    · exact hf.key_le t ht
    · -- The new timer starts from the clock, and its handle is behind all others.
      have hdue : f.due ≤ ts.now + period := hf.due_le_now.trans (hadd _ _ hc)
      exact Firing.key_le_key_iff.mpr
        ((lt_or_eq_of_le hdue).imp_right fun heq => ⟨heq, hf.issued.le⟩)
  · rw [hstep] at hnow ⊢
    exact ⟨hf.issued, hnow, fun t ht => hf.key_le t (mem_running_cancel.mp ht).1⟩
  · rw [hstep] at hnow ⊢
    exact ⟨hf.issued, hnow, hf.key_le⟩
  · rw [hstep] at hnow ⊢
    refine ⟨hf.issued, hnow, fun u hu => ?_⟩
    obtain ⟨v, hv, hle⟩ := h.exists_key_le_of_mem_fire hadd hu
    exact (hf.key_le v hv).trans hle

theorem after_of_firing? {ts : Timers τ} (h : ts.Orderly) {c : TimerCommand τ} {f : Firing τ}
    (hf : (ts.step c).1.firing? = some f) : After f (ts.step c).2 := by
  obtain ⟨horizon, t, hdue, rfl, hstep⟩ := exists_due?_of_firing? hf
  rw [hstep]
  refine ⟨h.issued t (mem_running_of_due? hdue).1, le_now_advanceTo _ t.nextDue, fun u hu => ?_⟩
  obtain ⟨v, hv, hle⟩ := h.exists_key_le_of_mem_fire hadd hu
  exact (key_le_of_due? h.increasing hdue hv).trans hle

theorem After.run {ts : Timers τ} (h : ts.Orderly) {f : Firing τ} (hf : After f ts)
    {commands : List (TimerCommand τ)} (hforward : ∀ c ∈ commands, c.IsForward) :
    After f (ts.run commands) ∧ ∀ g ∈ ts.firingsOf commands, f.key ≤ g.key := by
  induction commands generalizing ts with
  | nil => exact ⟨hf, fun g hg => absurd hg List.not_mem_nil⟩
  | cons c cs ih =>
      obtain ⟨hc, hcs⟩ := List.forall_mem_cons.mp hforward
      obtain ⟨hrun, hfirings⟩ := ih (h.step hc) (hf.step hadd h hc) hcs
      refine ⟨hrun, fun g hg => ?_⟩
      rcases mem_firingsOf_cons.mp hg with hg | hg
      · exact hf.key_le_of_firing? hg
      · exact hfirings g hg

theorem Orderly.pairwise_firingsOf {ts : Timers τ} (h : ts.Orderly)
    {commands : List (TimerCommand τ)} (hforward : ∀ c ∈ commands, c.IsForward) :
    (ts.firingsOf commands).Pairwise fun f g => f.key ≤ g.key := by
  induction commands generalizing ts with
  | nil => exact List.Pairwise.nil
  | cons c cs ih =>
      obtain ⟨hc, hcs⟩ := List.forall_mem_cons.mp hforward
      rw [firingsOf_cons]
      cases hstep : (ts.step c).1.firing? with
      | none => exact ih (h.step hc) hcs
      | some f =>
          have hafter : After f (ts.step c).2 := after_of_firing? hadd h hstep
          exact List.pairwise_cons.mpr
            ⟨(hafter.run hadd (h.step hc) hcs).2, ih (h.step hc) hcs⟩

theorem Orderly.due_le_now_run {ts : Timers τ} (h : ts.Orderly)
    {commands : List (TimerCommand τ)} (hforward : ∀ c ∈ commands, c.IsForward) {f : Firing τ}
    (hf : f ∈ ts.firingsOf commands) : f.due ≤ (ts.run commands).now := by
  induction commands generalizing ts with
  | nil => exact absurd hf List.not_mem_nil
  | cons c cs ih =>
      obtain ⟨hc, hcs⟩ := List.forall_mem_cons.mp hforward
      rcases mem_firingsOf_cons.mp hf with hf | hf
      · have hafter : After f (ts.step c).2 := after_of_firing? hadd h hf
        exact (hafter.run hadd (h.step hc) hcs).1.due_le_now
      · exact ih (h.step hc) hcs hf

/-- Whatever a host does with new timers that do not go back: the handles are all
different, a timer that was stopped never fires again, to stop a handle that no timer
has had does nothing, the firings are in order of their times and, within a time, of
their handles, the clock never goes back nor falls behind a firing, and nothing fires
exactly when no timer is due. -/
theorem run_keeps_order {commands : List (TimerCommand τ)}
    (hforward : ∀ c ∈ commands, c.IsForward) :
    let before := (empty : Timers τ)
    (before.handlesOf commands).Nodup ∧
    ((before.firingsOf commands).Pairwise fun f g =>
      f.due < g.due ∨ f.due = g.due ∧ f.handle ≤ g.handle) ∧
    ∀ earlier later, commands = earlier ++ later →
      let ts := before.run earlier
      ts.now ≤ (before.run commands).now ∧
      (∀ f ∈ before.firingsOf earlier, f.due ≤ ts.now) ∧
      (∀ handle rest, later = .cancel handle :: rest → handle ∈ before.handlesOf earlier →
        ∀ f ∈ (ts.cancel handle).firingsOf rest, f.handle ≠ handle) ∧
      (∀ handle, handle ∉ before.handlesOf earlier → ts.cancel handle = ts) ∧
      ∀ horizon, ts.pop? horizon = none ↔ ∀ t ∈ ts.running, horizon < t.nextDue := by
  intro before
  refine ⟨(pairwise_handlesOf _ _).imp Nat.ne_of_lt, ?_, ?_⟩
  · exact (orderly_empty.pairwise_firingsOf hadd hforward).imp Firing.key_le_key_iff.mp
  · rintro earlier later rfl ts
    have hearlier : ∀ c ∈ earlier, c.IsForward := fun c hc =>
      hforward c (List.mem_append_left later hc)
    refine ⟨?_, fun f hf => orderly_empty.due_le_now_run hadd hearlier hf, ?_,
      fun handle hnew => ?_, fun horizon => ?_⟩
    · rw [run_append]
      exact now_le_run ts later
    · rintro handle rest rfl hissued f hf
      exact (gone_cancel (lt_nextHandle_of_mem_handlesOf hissued)).ne_of_mem_firingsOf hf
    · apply cancel_eq_self
      rintro t ht rfl
      exact hnew ((handle_of_mem_run ht).resolve_left List.not_mem_nil)
    · rw [pop?, Option.map_eq_none_iff, due?_eq_none_iff]
      simp only [not_le]

end Forward

/-- A stopped timer and a later one, after a drain in which two timers were due at
the same time. -/
theorem run_keeps_order_past_stopped_timer :
    let commands : List (TimerCommand Rat) :=
      [.start 3, .start 2, .pop 6, .pop 6, .pop 6, .pop 6, .pop 6, .cancel 1, .pop 4,
        .advanceTo 7, .start 1, .pop 9, .pop 9, .pop 8]
    (∀ c ∈ commands, c.IsForward) ∧
    (empty : Timers Rat).firingsOf commands =
      [⟨1, 2⟩, ⟨0, 3⟩, ⟨1, 4⟩, ⟨0, 6⟩, ⟨1, 6⟩, ⟨2, 8⟩, ⟨0, 9⟩] ∧
    ((empty : Timers Rat).firingsOf commands).Pairwise fun f g =>
      f.due < g.due ∨ f.due = g.due ∧ f.handle ≤ g.handle := by
  intro commands
  have hforward : ∀ c ∈ commands, c.IsForward := by decide +kernel
  have hadd : ∀ t p : Rat, 0 ≤ p → t ≤ t + p := fun _ _ => le_add_of_nonneg_right
  exact ⟨hforward, by decide +kernel, (run_keeps_order hadd hforward).2.1⟩

/-- To stop a handle before its timer is started changes nothing: the timer
fires. -/
theorem fires_after_early_cancel :
    ∃ f ∈ ((empty : Timers Rat).run [.cancel 0]).firingsOf [.start 1, .pop 1], f.handle = 0 :=
  ⟨⟨0, 1⟩, by decide +kernel, rfl⟩

end Timers

end ProseScore
