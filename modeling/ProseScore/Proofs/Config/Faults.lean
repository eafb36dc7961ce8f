import Mathlib.Data.Option.Basic
import ProseScore.Config.Settings
import ProseScore.Scalar.Exact

/-!
# Settings without a fault

Settings make a configuration if they pass one check after the other, and then they
pass each of them.
-/

namespace ProseScore

theorem Timing.mem_all (t : Timing) : t ∈ all := by
  cases t <;> decide

variable {R : Type} [Scalar R]

namespace Settings

theorem fault?_eq_none_iff {s : Settings R} : s.fault? = none ↔
    (∀ role, symbolFault? role (s.symbol role) = (none : Option (ConfigFault R))) ∧
      collision? s.symbols = (none : Option (ConfigFault R)) ∧ s.sizeFault? = none ∧
      curveFault? s.velocity = none ∧ ∀ t, timingFault? t (s.timing t) = none := by
  simp only [fault?, Option.orElse_eq_none, List.findSome?_eq_none_iff]
  refine and_congr ⟨fun h role => h role role.mem_all, fun h role _ => h role⟩ ?_
  refine and_congr_right fun _ => and_congr_right fun _ => and_congr_right fun _ => ?_
  exact ⟨fun h t => h t t.mem_all, fun h t _ => h t⟩

theorem accepted_timing {settings : Settings R} (h : settings.fault? = none) {t : Timing} {x : R}
    (hx : settings.timing t = some x) : Scalar.isFinite x = true ∧ 0 < x := by
  have htiming := (fault?_eq_none_iff.mp h).2.2.2.2 t
  rw [hx, timingFault?] at htiming
  split at htiming
  · assumption
  · exact absurd htiming (Option.some_ne_none _)

/-- Accepted settings have positive timings, if the standard ones are. -/
theorem timing_pos (hstandard : ∀ t, 0 < (Timing.standard t : R)) {settings : Settings R}
    (h : settings.fault? = none) (t : Timing) :
    0 < (settings.timing t).getD (Timing.standard t) := by
  cases hx : settings.timing t with
  | none => exact hstandard t
  | some x => exact (accepted_timing h hx).2

theorem accepted_size {settings : Settings R} (h : settings.fault? = none) {given : Text}
    (hgiven : settings.baseSize = some given) : ∃ size : R, Size.ofText? given = some size := by
  have hsize := (fault?_eq_none_iff.mp h).2.2.1
  rw [sizeFault?, hgiven] at hsize
  dsimp only at hsize
  split at hsize
  · exact Option.isSome_iff_exists.mp ‹_›
  · exact absurd hsize (Option.some_ne_none _)

/-- The standard values pass their own checks. -/
theorem config_empty_exact : ({} : Settings Rat).config = .ok .standard :=
  config_eq_ok_iff.mpr ⟨by decide +kernel, rfl⟩

theorem config_empty_binary64 : ({} : Settings Float).config = .ok .standard :=
  config_eq_ok_iff.mpr ⟨by decide +kernel, rfl⟩

end Settings

/-- What a curve is checked for. -/
structure VelocityCurve.Accepted (c : VelocityCurve R) : Prop where
  apart : ¬ c.high ≤ c.low
  minimum_nonneg : 0 ≤ c.minimum
  minimum_le_one : c.minimum ≤ 1.0
  maximum_nonneg : 0 ≤ c.maximum
  maximum_le_one : c.maximum ≤ 1.0
  ordered : ¬ c.maximum < c.minimum

theorem Settings.accepted_velocity {settings : Settings R} {config : Config R}
    (h : settings.config = .ok config) : config.velocity.Accepted := by
  obtain ⟨hfault, rfl⟩ := config_eq_ok_iff.mp h
  have hcurve := (fault?_eq_none_iff.mp hfault).2.2.2.1
  rw [curveFault?] at hcurve
  split at hcurve
  · exact absurd hcurve (Option.some_ne_none _)
  · rename_i hapart
    split at hcurve
    · rename_i hbounds
      obtain ⟨hminimum, hminimum', hmaximum, hmaximum', hordered⟩ := hbounds
      exact ⟨hapart, hminimum, hminimum', hmaximum, hmaximum', hordered⟩
    · exact absurd hcurve (Option.some_ne_none _)

end ProseScore
