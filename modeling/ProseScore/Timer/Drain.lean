import ProseScore.Scalar
import ProseScore.Timer.Basic

/-!
# Draining timers

All firings up to a time, in their order.  A timer whose next due time does not
grow when it fires would fire forever; then there is no drain.
-/

namespace ProseScore.Timers

variable {R : Type} [Scalar R]

/-- A bound on the number of firings up to a time. -/
def firingBound (ts : Timers R) (horizon : R) : Nat :=
  ts.running.foldr (fun t bound => Scalar.termBound t.nextDue t.period horizon + bound) 0

/-- The firings up to a time, at most `fuel` of them, and the timers after
them. -/
def drainWith (horizon : R) : (fuel : Nat) → Timers R → Option (List (Firing R) × Timers R)
  | fuel, ts =>
    match ts.due? horizon with
    | none => some ([], ts)
    | some t =>
      match fuel with
      | 0 => none
      | fuel + 1 =>
        if t.again.nextDue ≤ t.nextDue then none
        else (drainWith horizon fuel (ts.fire t)).map fun (firings, ts) =>
          (⟨t.handle, t.nextDue⟩ :: firings, ts)

/-- The firings up to a time and the timers after them, with the clock at that
time.  There are none if some timer would fire forever. -/
def drain? (ts : Timers R) (horizon : R) : Option (List (Firing R) × Timers R) :=
  (drainWith horizon (ts.firingBound horizon) ts).map fun (firings, ts) =>
    (firings, ts.advanceTo horizon)

end ProseScore.Timers
