import ProseScore.Session.Keystroke

/-!
# Commands

A session answers the commands of its host one after the other.  Two things keep a
call from coming back: time that goes by where some timer would fire forever, and a
sound where the bounds of the velocities are not in order.
-/

namespace ProseScore

/-- What a host can ask of a session. -/
inductive Command (R : Type) where
  | edit (document : Document R)
  | tick
  | keystroke (caret : Caret) (key : Char)
  | timerFired (handle : Nat)
  | advance (seconds : R)
  | stopAll

inductive Outcome (R : Type) where
  /-- To an edit, to a tick and to time that goes by. -/
  | reports (reports : List (Report R))
  | keystroke (keystroke : Keystroke R)
  | fired (report : Option (Report R))
  | stopped

namespace Session

variable {R : Type} [Scalar R]

/-- What a command does, unless some timer would fire forever. -/
def effect? (s : Session R) : Command R → Option (Outcome R × Session R)
  | .edit document => let (reports, s) := s.edit document; some (.reports reports, s)
  | .tick => let (reports, s) := s.tick; some (.reports reports, s)
  | .keystroke caret key => let (k, s) := s.keystroke caret key; some (.keystroke k, s)
  | .timerFired handle => let (report, s) := s.timerFired handle; some (.fired report, s)
  | .advance seconds => (s.advance? seconds).map fun (reports, s) => (.reports reports, s)
  | .stopAll => some (.stopped, s.stopAll)

/-- What a command does and answers, if it comes back. -/
def step? (s : Session R) (c : Command R) : Option (Outcome R × Session R) :=
  (s.effect? c).filter fun (_, later) => s.comesBack later

section Step

variable {s later : Session R} {c : Command R} {outcome : Outcome R}

theorem step?_eq_some_iff :
    s.step? c = some (outcome, later) ↔
      s.effect? c = some (outcome, later) ∧ s.comesBack later := by
  simp [step?, Option.filter_eq_some_iff]

theorem effect?_of_step? (h : s.step? c = some (outcome, later)) :
    s.effect? c = some (outcome, later) :=
  (step?_eq_some_iff.mp h).1

theorem step?_eq_none_iff (h : s.effect? c = some (outcome, later)) :
    s.step? c = none ↔ ¬ s.comesBack later = true := by
  simp [step?, h]

/-- Where the bounds are in order, only time that never ends keeps a call from coming
back. -/
theorem step?_eq_effect? (h : s.config.velocity.Bounded) (c : Command R) :
    s.step? c = s.effect? c := by
  cases e : s.effect? c <;> simp [step?, comesBack, h, e]

end Step

def run? : Session R → List (Command R) → Option (List (Outcome R) × Session R)
  | s, [] => some ([], s)
  | s, c :: cs => do
    let (outcome, s) ← s.step? c
    let (outcomes, s) ← s.run? cs
    some (outcome :: outcomes, s)

/-- The sessions that a configuration can come to, whatever generators are drawn. -/
def Reachable (config : Config R) (s : Session R) : Prop :=
  ∃ drawn drawnLive commands outcomes,
    (new config drawn drawnLive).run? commands = some (outcomes, s)

end Session

end ProseScore
