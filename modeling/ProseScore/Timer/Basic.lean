/-!
# Repeating timers

Timers live on a clock that only moves forward.  Each fires again and again, one
period after it was started and one period after each firing, and has a handle
that no other timer ever has.
-/

namespace ProseScore

structure Timer (τ : Type) where
  handle : Nat
  period : τ
  nextDue : τ
  deriving DecidableEq, Repr

/-- A timer after a firing. -/
def Timer.again {τ : Type} [Add τ] (t : Timer τ) : Timer τ :=
  { t with nextDue := t.nextDue + t.period }

/-- One firing of a timer, at the time when it was due. -/
structure Firing (τ : Type) where
  handle : Nat
  due : τ
  deriving DecidableEq, Repr

/-- A clock, the handle of the next timer and the running timers, in the order of
their handles. -/
structure Timers (τ : Type) where
  now : τ
  nextHandle : Nat
  running : List (Timer τ)
  deriving DecidableEq, Repr

namespace Timers

variable {τ : Type}

def empty [Zero τ] : Timers τ :=
  ⟨0, 0, []⟩

def find? (ts : Timers τ) (handle : Nat) : Option (Timer τ) :=
  ts.running.find? (·.handle = handle)

def start [Add τ] (ts : Timers τ) (period : τ) : Nat × Timers τ :=
  (ts.nextHandle,
    { ts with
      nextHandle := ts.nextHandle + 1
      running := ts.running ++ [⟨ts.nextHandle, period, ts.now + period⟩] })

@[simp] theorem mem_running_start [Add τ] {ts : Timers τ} {period : τ} {t : Timer τ} :
    t ∈ (ts.start period).2.running ↔
      t ∈ ts.running ∨ t = ⟨ts.nextHandle, period, ts.now + period⟩ := by
  simp [start]

def cancel (ts : Timers τ) (handle : Nat) : Timers τ :=
  { ts with running := ts.running.filter (·.handle ≠ handle) }

@[simp] theorem mem_running_cancel {ts : Timers τ} {handle : Nat} {t : Timer τ} :
    t ∈ (ts.cancel handle).running ↔ t ∈ ts.running ∧ t.handle ≠ handle := by
  simp [cancel]

/-- Move the clock to a time, unless it is there already or beyond. -/
def advanceTo [LT τ] [DecidableLT τ] (ts : Timers τ) (time : τ) : Timers τ :=
  { ts with now := if ts.now < time then time else ts.now }

/-- The earlier of two timers, the first one if they are due at the same time. -/
def earlier [LT τ] [DecidableLT τ] (a b : Timer τ) : Timer τ :=
  if b.nextDue < a.nextDue then b else a

/-- The earliest of some timers, the first of those that are due at the same
time. -/
def earliest? [LT τ] [DecidableLT τ] : List (Timer τ) → Option (Timer τ)
  | [] => none
  | t :: ts => some (ts.foldl earlier t)

theorem earliest?_eq_none_iff [LT τ] [DecidableLT τ] {ts : List (Timer τ)} :
    earliest? ts = none ↔ ts = [] := by
  cases ts <;> simp [earliest?]

theorem earlier_eq_or [LT τ] [DecidableLT τ] (a b : Timer τ) :
    earlier a b = a ∨ earlier a b = b := by
  unfold earlier
  split
  · exact Or.inr rfl
  · exact Or.inl rfl

theorem foldl_earlier_mem [LT τ] [DecidableLT τ] (t : Timer τ) (ts : List (Timer τ)) :
    ts.foldl earlier t ∈ t :: ts := by
  induction ts generalizing t with
  | nil => simp
  | cons u ts ih =>
    rw [List.foldl_cons]
    rcases List.mem_cons.mp (ih (earlier t u)) with h | h
    · rw [h]
      rcases earlier_eq_or t u with e | e <;> simp [e]
    · simp [h]

theorem mem_of_earliest? [LT τ] [DecidableLT τ] {ts : List (Timer τ)} {t : Timer τ}
    (h : earliest? ts = some t) : t ∈ ts := by
  cases ts with
  | nil => simp [earliest?] at h
  | cons u ts =>
    rw [earliest?, Option.some_inj] at h
    exact h ▸ foldl_earlier_mem u ts

/-- The running timer that fires next, if it does so at or before a time. -/
def due? [LE τ] [DecidableLE τ] [LT τ] [DecidableLT τ] (ts : Timers τ) (horizon : τ) :
    Option (Timer τ) :=
  earliest? (ts.running.filter (·.nextDue ≤ horizon))

theorem due?_eq_none_iff [LE τ] [DecidableLE τ] [LT τ] [DecidableLT τ] {ts : Timers τ}
    {horizon : τ} :
    ts.due? horizon = none ↔ ∀ t ∈ ts.running, ¬ t.nextDue ≤ horizon := by
  simp [due?, earliest?_eq_none_iff]

theorem mem_running_of_due? [LE τ] [DecidableLE τ] [LT τ] [DecidableLT τ] {ts : Timers τ}
    {horizon : τ} {t : Timer τ} (h : ts.due? horizon = some t) :
    t ∈ ts.running ∧ t.nextDue ≤ horizon := by
  simpa using List.mem_filter.mp (mem_of_earliest? h)

/-- The timers after a firing of `t`: it is due again one period later, and the
clock has come to when it was due. -/
def fire [Add τ] [LT τ] [DecidableLT τ] (ts : Timers τ) (t : Timer τ) : Timers τ :=
  let again (u : Timer τ) := if u.handle = t.handle then u.again else u
  { ts with running := ts.running.map again }.advanceTo t.nextDue

/-- Fire the timer that comes next, if it does so at or before a time. -/
def pop? [Add τ] [LE τ] [DecidableLE τ] [LT τ] [DecidableLT τ] (ts : Timers τ)
    (horizon : τ) : Option (Firing τ × Timers τ) :=
  (ts.due? horizon).map fun t => (⟨t.handle, t.nextDue⟩, ts.fire t)

end Timers

end ProseScore
