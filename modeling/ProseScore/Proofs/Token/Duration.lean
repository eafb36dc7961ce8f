import Mathlib.Algebra.Order.BigOperators.Group.List
import Mathlib.Algebra.Order.Ring.Rat
import ProseScore.Scalar.Exact
import ProseScore.Token.Reading

/-!
# How long tokens take

A token takes the time of a letter or that of a rest.  In exact time, tokens that
follow each other take the same time wherever they begin.
-/

namespace ProseScore.Token

variable {R : Type}

theorem duration_of_mem_token? {config : Config R} {w : Word R} {t : Token R}
    (h : t ∈ (w.token? config).toList) : t.duration = config.baseDuration := by
  obtain ⟨kind, -, rfl⟩ := Option.map_eq_some_iff.mp (Option.mem_toList.mp h)
  rfl

theorem duration_of_mem_read {config : Config R} {ms : List (Mark R)} {t : Token R}
    (h : t ∈ (read config ms).2) :
    t.duration = config.baseDuration ∨ t.duration = config.restDuration := by
  induction ms with
  | nil => exact absurd h List.not_mem_nil
  | cons m ms ih =>
      cases m with
      | letter l => exact ih h
      | accent => exact ih h
      | random => exact ih h
      | gap =>
          rcases List.mem_append.mp h with hword | hrest
          · exact Or.inl (duration_of_mem_token? hword)
          · exact ih hrest
      | rest =>
          rcases List.mem_cons.mp h with rfl | h
          · exact Or.inr rfl
          · rcases List.mem_append.mp h with hword | hrest
            · exact Or.inl (duration_of_mem_token? hword)
            · exact ih hrest

theorem duration_of_mem_ofCells {config : Config R} {excluded : List Extent} {cs : List (Cell R)}
    {t : Token R} (h : t ∈ ofCells config excluded cs) :
    t.duration = config.baseDuration ∨ t.duration = config.restDuration :=
  duration_of_mem_read h

theorem foldl_duration (start : Rat) (ts : List (Token Rat)) :
    ts.foldl (fun time t => time + t.duration) start = start + (ts.map duration).sum := by
  induction ts generalizing start with
  | nil => exact (add_zero start).symm
  | cons t ts ih => rw [List.foldl_cons, ih, List.map_cons, List.sum_cons, add_assoc]

theorem foldl_duration_sub (start : Rat) (ts : List (Token Rat)) :
    ts.foldl (fun time t => time + t.duration) start - start = total ts := by
  rw [total, foldl_duration, foldl_duration, add_sub_cancel_left, zero_add]

theorem total_pos {ts : List (Token Rat)} (hne : ts ≠ []) (h : ∀ t ∈ ts, 0 < t.duration) :
    0 < total ts := by
  rw [total, foldl_duration, zero_add]
  apply List.sum_pos
  · intro d hd
    obtain ⟨t, ht, rfl⟩ := List.mem_map.mp hd
    exact h t ht
  · exact List.map_eq_nil_iff.not.mpr hne

end ProseScore.Token
