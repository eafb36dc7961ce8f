import Mathlib
import ProseScore.Proofs.Config.Faults
import ProseScore.Scalar.Exact
import ProseScore.Sound.Basic

/-!
# The velocity curve

Accepted settings have a curve whose marks stand apart and whose bounds are in order.
With exact numbers the velocity is then a weighted mean of the bounds between the
marks, the bound itself beyond a mark, and never falls with the size.
-/

namespace ProseScore

namespace VelocityCurve

section

variable {R : Type} [Scalar R]

/-- How far a size lies on the way from the low mark to the high one. -/
def share (c : VelocityCurve R) (size : R) : R :=
  (Size.pixels size - c.low) / (c.high - c.low)

/-- The line through both marks. -/
def line (c : VelocityCurve R) (size : R) : R :=
  c.minimum + c.share size * (c.maximum - c.minimum)

theorem plain_eq (c : VelocityCurve R) (size : R) :
    c.plain size = if c.line size < c.minimum then c.minimum
      else if c.maximum < c.line size then c.maximum else c.line size :=
  rfl

end

variable {c : VelocityCurve Rat} {size size' : Rat}

theorem Accepted.low_lt_high (h : c.Accepted) : c.low < c.high :=
  not_le.mp h.apart

theorem Accepted.minimum_le_maximum (h : c.Accepted) : c.minimum ≤ c.maximum :=
  not_lt.mp h.ordered

theorem Accepted.plain_eq_clamp (h : c.Accepted) (size : Rat) :
    c.plain size = max c.minimum (min (c.line size) c.maximum) := by
  have hle := h.minimum_le_maximum
  rw [plain_eq]
  split
  · rename_i hbelow
    rw [min_eq_left (hbelow.le.trans hle), max_eq_left hbelow.le]
  · rename_i hbelow
    split
    · rename_i habove
      rw [min_eq_right habove.le, max_eq_right hle]
    · rename_i habove
      rw [min_eq_left (not_lt.mp habove), max_eq_right (not_lt.mp hbelow)]

theorem velocity_true (c : VelocityCurve Rat) (size : Rat) :
    c.velocity size true = min (c.plain size + c.accentBonus) c.maximum :=
  (min_def _ _).symm

namespace Accepted

theorem share_le_share (h : c.Accepted) (hle : size ≤ size') : c.share size ≤ c.share size' := by
  have hspan : 0 ≤ c.high - c.low := (sub_pos.mpr h.low_lt_high).le
  have hpixels : Size.pixels size ≤ Size.pixels size' := by
    show size * 96.0 / 72.0 ≤ size' * 96.0 / 72.0
    gcongr
  rw [share, share]
  gcongr

theorem line_le_line (h : c.Accepted) (hle : c.share size ≤ c.share size') :
    c.line size ≤ c.line size' := by
  have hrange : 0 ≤ c.maximum - c.minimum := sub_nonneg.mpr h.minimum_le_maximum
  rw [line, line]
  gcongr

theorem monotone_velocity (h : c.Accepted) (accent : Bool) :
    Monotone fun size => c.velocity size accent := by
  have hplain : Monotone c.plain := fun size size' hle => by
    have hline := h.line_le_line (h.share_le_share hle)
    rw [h.plain_eq_clamp, h.plain_eq_clamp]
    gcongr
  cases accent with
  | false => exact hplain
  | true =>
      intro size size' hle
      have hle := hplain hle
      show c.velocity size true ≤ c.velocity size' true
      rw [velocity_true, velocity_true]
      gcongr

/-! ## Below, between and above the marks -/

theorem plain_of_le_low (h : c.Accepted) (hle : Size.pixels size ≤ c.low) :
    c.plain size = c.minimum := by
  have hshare : c.share size ≤ 0 :=
    div_nonpos_of_nonpos_of_nonneg (sub_nonpos.mpr hle) (sub_pos.mpr h.low_lt_high).le
  have hline : c.line size ≤ c.minimum :=
    add_le_of_nonpos_right
      (mul_nonpos_of_nonpos_of_nonneg hshare (sub_nonneg.mpr h.minimum_le_maximum))
  rw [h.plain_eq_clamp, max_eq_left ((min_le_left _ _).trans hline)]

theorem plain_of_high_le (h : c.Accepted) (hle : c.high ≤ Size.pixels size) :
    c.plain size = c.maximum := by
  have hshare : 1 ≤ c.share size :=
    (one_le_div (sub_pos.mpr h.low_lt_high)).mpr (sub_le_sub_right hle c.low)
  have hline : c.maximum ≤ c.line size := by
    have hmore := le_mul_of_one_le_left (sub_nonneg.mpr h.minimum_le_maximum) hshare
    exact sub_le_iff_le_add'.mp hmore
  rw [h.plain_eq_clamp, min_eq_right hline, max_eq_right h.minimum_le_maximum]

theorem plain_of_between (h : c.Accepted) (hlow : c.low ≤ Size.pixels size)
    (hhigh : Size.pixels size ≤ c.high) :
    c.plain size = (c.minimum * (c.high - Size.pixels size) +
      c.maximum * (Size.pixels size - c.low)) / (c.high - c.low) := by
  have hspan : 0 < c.high - c.low := sub_pos.mpr h.low_lt_high
  have hrange : 0 ≤ c.maximum - c.minimum := sub_nonneg.mpr h.minimum_le_maximum
  have hshare : 0 ≤ c.share size := div_nonneg (sub_nonneg.mpr hlow) hspan.le
  have hshare' : c.share size ≤ 1 := (div_le_one hspan).mpr (sub_le_sub_right hhigh c.low)
  have hline : c.minimum ≤ c.line size := le_add_of_nonneg_right (mul_nonneg hshare hrange)
  have hline' : c.line size ≤ c.maximum :=
    le_sub_iff_add_le'.mp (mul_le_of_le_one_left hrange hshare')
  rw [h.plain_eq_clamp, min_eq_left hline', max_eq_right hline, line, share]
  have hne := hspan.ne'
  field_simp
  ring

end Accepted

/-- **The velocity curve.** With exact numbers the velocity never falls as the size
grows.  Without an accent it is the minimum up to the low mark, the maximum from the
high one on, and between them their mean, weighted with the distances to the marks.  An
accent adds its bonus, up to the maximum. -/
theorem velocity_rises_to_maximum {settings : Settings Rat} {config : Config Rat}
    (h : settings.config = .ok config) :
    let c := config.velocity
    (∀ accent, Monotone fun size => c.velocity size accent) ∧
    ∀ size,
      (Size.pixels size ≤ c.low → c.velocity size false = c.minimum) ∧
      (c.high ≤ Size.pixels size → c.velocity size false = c.maximum) ∧
      (c.low ≤ Size.pixels size → Size.pixels size ≤ c.high → c.velocity size false =
        (c.minimum * (c.high - Size.pixels size) + c.maximum * (Size.pixels size - c.low)) /
          (c.high - c.low)) ∧
      c.velocity size true = min (c.velocity size false + c.accentBonus) c.maximum := by
  intro c
  have haccepted : c.Accepted := Settings.accepted_velocity h
  refine ⟨haccepted.monotone_velocity, fun size => ⟨?_, ?_, ?_, ?_⟩⟩
  · exact haccepted.plain_of_le_low
  · exact haccepted.plain_of_high_le
  · exact haccepted.plain_of_between
  · exact c.velocity_true size

/-- A low mark below zero, and a letter of six points, which are eight pixels. -/
theorem velocity_rises_from_negative_mark :
    let settings : Settings Rat :=
      { low := some (-8), high := some 24, minimum := some 0.25, maximum := some 0.75 }
    ∃ config, settings.config = .ok config ∧
      (Monotone fun size => config.velocity.velocity size true) ∧
      config.velocity.velocity 6 false = 0.5 ∧ config.velocity.velocity 6 true = 0.7 ∧
      config.velocity.velocity 18 false = 0.75 := by
  intro settings
  have h : settings.config = .ok settings.fill :=
    Settings.config_eq_ok_iff.mpr ⟨by decide +kernel, rfl⟩
  obtain ⟨hmono, hsize⟩ := velocity_rises_to_maximum h
  have hmiddle := (hsize 6).2.2.1 (by decide +kernel) (by decide +kernel)
  refine ⟨settings.fill, h, hmono true, hmiddle.trans (by decide +kernel), ?_, ?_⟩
  · rw [(hsize 6).2.2.2, hmiddle]
    decide +kernel
  · exact (hsize 18).2.1 (by decide +kernel)

end VelocityCurve

end ProseScore
