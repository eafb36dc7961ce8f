import ProseScore.Region.Basic
import ProseScore.Timer.Basic

/-!
# The registry of loops

Every loop that runs has a timer.  The registry holds the timers and says, for
each handle, which loop of which paragraph it drives.
-/

namespace ProseScore

/-- The loop that a timer drives. -/
structure Owner where
  paragraph : Nat
  key : RegionKey
  deriving DecidableEq, Repr

/-- Timers and their owners by handle. -/
structure Registry (R : Type) where
  timers : Timers R
  owners : List (Nat × Owner)
  deriving DecidableEq, Repr

namespace Registry

variable {R : Type}

def empty [Zero R] : Registry R :=
  ⟨.empty, []⟩

def owner? (r : Registry R) (handle : Nat) : Option Owner :=
  r.owners.lookup handle

def arm [Add R] (r : Registry R) (period : R) (owner : Owner) : Nat × Registry R :=
  let (handle, timers) := r.timers.start period
  (handle, ⟨timers, r.owners ++ [(handle, owner)]⟩)

def release (r : Registry R) (handle : Nat) : Registry R :=
  ⟨r.timers.cancel handle, r.owners.filter (·.1 ≠ handle)⟩

def releaseAll (r : Registry R) (handles : List Nat) : Registry R :=
  handles.foldl release r

def clear (r : Registry R) : Registry R :=
  r.releaseAll (r.owners.map Prod.fst)

@[simp] theorem timers_release (r : Registry R) (handle : Nat) :
    (r.release handle).timers = r.timers.cancel handle := rfl

@[simp] theorem mem_owners_release {r : Registry R} {handle : Nat} {o : Nat × Owner} :
    o ∈ (r.release handle).owners ↔ o ∈ r.owners ∧ o.1 ≠ handle := by
  simp [release]

@[simp] theorem mem_owners_releaseAll {r : Registry R} {handles : List Nat} {o : Nat × Owner} :
    o ∈ (r.releaseAll handles).owners ↔ o ∈ r.owners ∧ o.1 ∉ handles := by
  induction handles generalizing r with
  | nil => simp [releaseAll]
  | cons h hs ih =>
    have := ih (r := r.release h)
    simp only [releaseAll, List.foldl_cons] at this ⊢
    simp [this, and_assoc]

@[simp] theorem mem_running_releaseAll {r : Registry R} {handles : List Nat} {t : Timer R} :
    t ∈ (r.releaseAll handles).timers.running ↔ t ∈ r.timers.running ∧ t.handle ∉ handles := by
  induction handles generalizing r with
  | nil => simp [releaseAll]
  | cons h hs ih =>
    have := ih (r := r.release h)
    simp only [releaseAll, List.foldl_cons] at this ⊢
    simp [this, and_assoc]

@[simp] theorem owners_clear (r : Registry R) : r.clear.owners = [] := by
  rw [List.eq_nil_iff_forall_not_mem]
  intro o ho
  rw [clear, mem_owners_releaseAll] at ho
  exact ho.2 (List.mem_map_of_mem ho.1)

end Registry

end ProseScore
