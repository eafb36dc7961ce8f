import ProseScore.Scalar
import ProseScore.Session.Activation
import ProseScore.Timer.Registry

/-!
# The table of loops

The table says for every paragraph whether it is active and which of its loops
run.  It follows the document: a loop that is still there keeps running, one
that is gone is stopped, and a new one is started.
-/

namespace ProseScore

structure LoopTimer (R : Type) where
  key : RegionKey
  handle : Nat
  period : R
  deriving DecidableEq, Repr

inductive Activity (R : Type) where
  | idle
  /-- The loops run in the order in which they were started. -/
  | active (loops : List (LoopTimer R))
  deriving DecidableEq, Repr

namespace Activity

variable {R : Type}

def isActive : Activity R → Bool
  | idle => false
  | active _ => true

def loops : Activity R → List (LoopTimer R)
  | idle => []
  | active ls => ls

end Activity

/-- The states of the paragraphs.  Those beyond the end are idle. -/
abbrev LoopTable (R : Type) :=
  List (Activity R)

namespace LoopTable

variable {R : Type}

def state (table : LoopTable R) (paragraph : Nat) : Activity R :=
  table.getD paragraph .idle

def loops (table : LoopTable R) (paragraph : Nat) : List (LoopTimer R) :=
  (table.state paragraph).loops

def handles (table : LoopTable R) : List Nat :=
  table.flatMap fun a => a.loops.map LoopTimer.handle

end LoopTable

variable {R : Type} [Scalar R]

/-- The period of a loop: its own duration, so that it repeats without a break,
or the fallback if that is not positive. -/
def Config.period (config : Config R) (tokens : List (Token R)) : R :=
  let total := Token.total tokens
  if 0 < total then total else config.fallbackPeriod

def Registry.armLoops (config : Config R) (paragraph : Nat) :
    Registry R → List (RegionKey × List (Token R)) → List (LoopTimer R) × Registry R
  | r, [] => ([], r)
  | r, (key, tokens) :: rest =>
    let period := config.period tokens
    let (handle, r) := r.arm period ⟨paragraph, key⟩
    let (loops, r) := armLoops config paragraph r rest
    (⟨key, handle, period⟩ :: loops, r)

namespace Activity

/-- Bring a paragraph in line with its score, or without a score to rest. -/
def follow (config : Config R) (paragraph : Nat) (score : Option (Score R)) (a : Activity R)
    (r : Registry R) : Activity R × Registry R :=
  match score with
  | none => (idle, r.releaseAll (a.loops.map LoopTimer.handle))
  | some score =>
    let (kept, gone) := a.loops.partition fun l => score.keys.contains l.key
    let fresh := score.loops.filter fun (key, tokens) =>
      !tokens.isEmpty && !kept.any (·.key = key)
    let (armed, r) :=
      (r.releaseAll (gone.map LoopTimer.handle)).armLoops config paragraph fresh
    (active (kept ++ armed), r)

end Activity

namespace LoopTable

/-- Bring the paragraphs from `paragraph` on in line with their scores.  What is
in the table beyond the last of them is stopped. -/
def follow (config : Config R) : (paragraph : Nat) → List (Option (Score R)) → LoopTable R →
    Registry R → LoopTable R × Registry R
  | _, [], table, r => ([], r.releaseAll table.handles)
  | paragraph, score :: scores, table, r =>
    let (a, r) := (table.state 0).follow config paragraph score r
    let (rest, r) := follow config (paragraph + 1) scores table.tail r
    (a :: rest, r)

/-- The table comes to have an entry for every paragraph. -/
@[simp] theorem length_follow (config : Config R) (paragraph : Nat)
    (scores : List (Option (Score R))) (table : LoopTable R) (r : Registry R) :
    (follow config paragraph scores table r).1.length = scores.length := by
  induction scores generalizing paragraph table r with
  | nil => rfl
  | cons score scores ih => simp [follow, ih]

/-- The bodies of the paragraphs from `paragraph` on that become active, unless
they are empty. -/
def openings : (paragraph : Nat) → List (Option (Score R)) → LoopTable R →
    List (Nat × List (Token R))
  | _, [], _ => []
  | paragraph, score :: scores, table =>
    let rest := openings (paragraph + 1) scores table.tail
    match score with
    | some score =>
      if (table.state 0).isActive || score.body.isEmpty then rest
      else (paragraph, score.body) :: rest
    | none => rest

end LoopTable

end ProseScore
