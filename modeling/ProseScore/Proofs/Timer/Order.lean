import Mathlib.Data.Prod.Lex
import ProseScore.Timer.Basic

/-!
# The order of firings

Firings are ordered by the time when they are due, and those of one time by their
handles.  The timer that fires next is the first one in this order, and no firing
takes a timer back in it.
-/

namespace ProseScore

variable {τ : Type} [LinearOrder τ]

/-- What places a firing in the order. -/
def Firing.key (f : Firing τ) : τ ×ₗ Nat :=
  toLex (f.due, f.handle)

theorem Firing.key_le_key_iff {f g : Firing τ} :
    f.key ≤ g.key ↔ f.due < g.due ∨ f.due = g.due ∧ f.handle ≤ g.handle :=
  Prod.Lex.toLex_le_toLex

theorem Firing.key_lt_key_iff {f g : Firing τ} :
    f.key < g.key ↔ f.due < g.due ∨ f.due = g.due ∧ f.handle < g.handle :=
  Prod.Lex.toLex_lt_toLex

/-- The firing for which a timer stands by. -/
def Timer.next (t : Timer τ) : Firing τ :=
  ⟨t.handle, t.nextDue⟩

namespace Timers

theorem now_advanceTo (ts : Timers τ) (time : τ) : (ts.advanceTo time).now = max ts.now time :=
  (max_def_lt _ _).symm

theorem now_le_advanceTo (ts : Timers τ) (time : τ) : ts.now ≤ (ts.advanceTo time).now := by
  rw [now_advanceTo]
  exact le_max_left _ _

theorem le_now_advanceTo (ts : Timers τ) (time : τ) : time ≤ (ts.advanceTo time).now := by
  rw [now_advanceTo]
  exact le_max_right _ _

/-- In the order of their handles, the first of the earliest timers is the least
one. -/
theorem key_foldl_earlier_le {t : Timer τ} {ts : List (Timer τ)}
    (h : ((t :: ts).map Timer.handle).Pairwise (· < ·)) {u : Timer τ} (hu : u ∈ t :: ts) :
    (ts.foldl earlier t).next.key ≤ u.next.key := by
  induction ts generalizing t u with
  | nil =>
      rw [List.mem_singleton.mp hu]
      exact le_refl _
  | cons v ts ih =>
      obtain ⟨ht, hv⟩ := List.pairwise_cons.mp h
      obtain ⟨hv, hts⟩ := List.pairwise_cons.mp hv
      have htv : t.handle < v.handle := ht _ List.mem_cons_self
      have hfirst : (earlier t v).next.key ≤ t.next.key ∧ (earlier t v).next.key ≤ v.next.key := by
        unfold earlier
        split
        · exact ⟨Firing.key_le_key_iff.mpr (Or.inl ‹_›), le_refl _⟩
        · refine ⟨le_refl _, Firing.key_le_key_iff.mpr ?_⟩
          exact (le_iff_lt_or_eq.mp (not_lt.mp ‹_›)).imp_right fun heq => ⟨heq, htv.le⟩
      have hincreasing : ((earlier t v :: ts).map Timer.handle).Pairwise (· < ·) := by
        refine List.pairwise_cons.mpr ⟨fun handle hmem => ?_, hts⟩
        rcases earlier_eq_or t v with heq | heq
        · rw [heq]
          exact ht _ (List.mem_cons_of_mem _ hmem)
        · rw [heq]
          exact hv _ hmem
      rw [List.foldl_cons]
      rcases List.mem_cons.mp hu with rfl | hu
      · exact (ih hincreasing List.mem_cons_self).trans hfirst.1
      · rcases List.mem_cons.mp hu with rfl | hu
        · exact (ih hincreasing List.mem_cons_self).trans hfirst.2
        · exact ih hincreasing (List.mem_cons_of_mem _ hu)

/-- The timer that fires next comes first of all, whether they are due by then or
not. -/
theorem key_le_of_due? {ts : Timers τ} (h : (ts.running.map Timer.handle).Pairwise (· < ·))
    {horizon : τ} {t u : Timer τ} (hdue : ts.due? horizon = some t) (hu : u ∈ ts.running) :
    t.next.key ≤ u.next.key := by
  by_cases hle : u.nextDue ≤ horizon
  · have hmem : u ∈ ts.running.filter (·.nextDue ≤ horizon) :=
      List.mem_filter.mpr ⟨hu, decide_eq_true hle⟩
    have hincreasing : ((ts.running.filter (·.nextDue ≤ horizon)).map Timer.handle).Pairwise
        (· < ·) := h.sublist (List.filter_sublist.map Timer.handle)
    rw [due?] at hdue
    cases hfilter : ts.running.filter (·.nextDue ≤ horizon) with
    | nil => exact absurd hmem (hfilter ▸ List.not_mem_nil)
    | cons v vs =>
        rw [hfilter, earliest?, Option.some_inj] at hdue
        rw [hfilter] at hmem hincreasing
        exact hdue ▸ key_foldl_earlier_le hincreasing hmem
  · have htime := (mem_running_of_due? hdue).2
    exact Firing.key_le_key_iff.mpr (Or.inl (htime.trans_lt (not_le.mp hle)))

end Timers

end ProseScore
