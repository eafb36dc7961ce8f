import ProseScore.Proofs.Config.Numbers
import ProseScore.Proofs.Sound.Curve

/-!
# The range of velocities

The bounds of an accepted curve are numbers from zero to one in their order, but its
marks may be undefined or too far apart, and its bonus may be negative.  A velocity is
in its bounds exactly where the line through the marks is defined, and an accent takes
nothing away unless its bonus is negative.
-/

namespace ProseScore

open Binary64

theorem Size.sign?_pixels {size : Float} (h : 0 < size) :
    sign? (pixels size).toModel.unpack = some .positive := by
  have hscale : (96.0 : Float).toModel.unpack = .finite .positive _ _ _ := rfl
  have hscale' : (72.0 : Float).toModel.unpack = .finite .positive _ _ _ := rfl
  exact sign?_div (sign?_mul (sign?_of_pos h) hscale) hscale'

namespace VelocityCurve

variable {c : VelocityCurve Float} {size : Float}

namespace Accepted

theorem minimum_defined (h : c.Accepted) : c.minimum ≠ .nan ∧ ¬ c.minimum.isInf :=
  ⟨(ne_nan_of_le h.minimum_nonneg).2, not_isInf_of_le_one h.minimum_nonneg h.minimum_le_one⟩

theorem maximum_defined (h : c.Accepted) : c.maximum ≠ .nan ∧ ¬ c.maximum.isInf :=
  ⟨(ne_nan_of_le h.maximum_nonneg).2, not_isInf_of_le_one h.maximum_nonneg h.maximum_le_one⟩

theorem line_eq_nan_iff (h : c.Accepted) (size : Float) : c.line size = .nan ↔
    c.share size = .nan ∨ (c.share size).isInf = true ∧ c.maximum ≤ c.minimum := by
  have hzero : IsZero (c.maximum - c.minimum) ↔ c.maximum ≤ c.minimum := by
    rw [isZero_sub_iff]
    simp [h.minimum_le, h.maximum_defined.2]
  have hnan : c.maximum - c.minimum ≠ .nan := by
    rw [ne_eq, sub_eq_nan_iff]
    simp [h.minimum_defined.1, h.maximum_defined]
  have hinf : ¬ (c.maximum - c.minimum).isInf :=
    not_isInf_sub h.maximum_nonneg h.minimum_nonneg h.maximum_defined.2 h.minimum_defined.2
  have hsum : c.line size = .nan ↔ c.share size * (c.maximum - c.minimum) = .nan := by
    refine add_eq_nan_iff.trans ?_
    simp [h.minimum_defined]
  rw [hsum, mul_eq_nan_iff, hzero]
  simp [hnan, hinf]

theorem share_eq_nan_iff (h : c.Accepted) (hsize : 0 < size) : c.share size = .nan ↔
    c.low = .nan ∨ c.high = .nan ∨
      (Size.pixels size - c.low).isInf = true ∧ (c.high - c.low).isInf = true := by
  have hpixels : 0 ≤ Size.pixels size := nonneg_of_sign? (Size.sign?_pixels hsize)
  have hpixels' : Size.pixels size ≠ .nan := (ne_nan_of_le hpixels).2
  refine div_eq_nan_iff.trans ?_
  by_cases hlow : c.low = .nan
  · simp [sub_eq_nan_iff, hlow]
  by_cases hhigh : c.high = .nan
  · simp [sub_eq_nan_iff, hhigh]
  -- Marks that are infinite and equal would not stand apart.
  have hspan : c.high - c.low ≠ .nan := by
    rw [ne_eq, sub_eq_nan_iff]
    rintro (hnan | hnan | ⟨-, heq⟩)
    · exact hhigh hnan
    · exact hlow hnan
    · exact h.apart (heq ▸ le_self hhigh)
  have hzero : ¬ IsZero (c.high - c.low) := by
    rw [isZero_sub_iff]
    exact fun hzero => h.apart hzero.1.1
  -- Nor would there be a high mark above an infinite size.
  have hrise : Size.pixels size - c.low ≠ .nan := by
    rw [ne_eq, sub_eq_nan_iff]
    rintro (hnan | hnan | ⟨hinf, heq⟩)
    · exact hpixels' hnan
    · exact hlow hnan
    · exact h.apart (le_of_isInf hhigh (heq ▸ hpixels) (heq ▸ hinf))
  simp [hlow, hhigh, hspan, hzero, hrise]

end Accepted

/-- The curve gives letters of the size a velocity: its marks are numbers, the size and
the high mark are not both out of reach from the low one, and if the bounds are equal,
the size is not too many spans away from the low mark. -/
structure Places (c : VelocityCurve Float) (size : Float) : Prop where
  low : c.low ≠ .nan
  high : c.high ≠ .nan
  reach : ¬ ((Size.pixels size - c.low).isInf ∧ (c.high - c.low).isInf)
  flat : c.maximum ≤ c.minimum → ¬ (c.share size).isInf

/-- A curve places all sizes if its marks are not too far apart and its bounds differ. -/
theorem Places.of_lt (hlow : c.low ≠ .nan) (hhigh : c.high ≠ .nan)
    (hspan : ¬ (c.high - c.low).isInf) (hlt : c.minimum < c.maximum) (size : Float) :
    c.Places size where
  low := hlow
  high := hhigh
  reach := fun hinf => hspan hinf.2
  flat := fun hle => absurd hlt (not_lt_of_le hle)

theorem Accepted.places_iff (h : c.Accepted) (hsize : 0 < size) :
    c.Places size ↔ c.line size ≠ .nan := by
  rw [ne_eq, h.line_eq_nan_iff, h.share_eq_nan_iff hsize]
  constructor
  · rintro ⟨hlow, hhigh, hreach, hflat⟩
    rintro ((hnan | hnan | hinf) | ⟨hinf, hle⟩)
    · exact hlow hnan
    · exact hhigh hnan
    · exact hreach hinf
    · exact hflat hle hinf
  · intro hdefined
    exact ⟨fun hnan => hdefined (.inl (.inl hnan)), fun hnan => hdefined (.inl (.inr (.inl hnan))),
      fun hinf => hdefined (.inl (.inr (.inr hinf))), fun hle hinf => hdefined (.inr ⟨hinf, hle⟩)⟩

/-! ## Velocities -/

theorem plain_eq_nan (h : c.line size = .nan) : c.plain size = .nan := by
  rw [plain_eq, if_neg fun hlt => (ne_nan_of_lt hlt).1 h, if_neg fun hlt => (ne_nan_of_lt hlt).2 h]
  exact h

theorem Accepted.plain_between (h : c.Accepted) (hline : c.line size ≠ .nan) :
    c.minimum ≤ c.plain size ∧ c.plain size ≤ c.maximum := by
  rw [plain_eq]
  split
  · exact ⟨le_self h.minimum_defined.1, h.minimum_le⟩
  · split
    · exact ⟨h.minimum_le, le_self h.maximum_defined.1⟩
    · exact ⟨le_of_not_lt hline h.minimum_defined.1 ‹_›,
        le_of_not_lt h.maximum_defined.1 hline ‹_›⟩

theorem velocity_unaccented (c : VelocityCurve Float) (size : Float) :
    c.velocity size false = c.plain size := by
  simp [velocity]

theorem velocity_accented (c : VelocityCurve Float) (size : Float) : c.velocity size true =
    if c.plain size + c.accentBonus ≤ c.maximum then c.plain size + c.accentBonus
    else c.maximum :=
  rfl

theorem Accepted.accented_le (h : c.Accepted) (size : Float) :
    c.velocity size true ≤ c.maximum := by
  rw [velocity_accented]
  split
  · assumption
  · exact le_self h.maximum_defined.1

theorem accented_of_nan (h : c.line size = .nan) :
    c.velocity size true = c.maximum := by
  have hsum : c.plain size + c.accentBonus = .nan :=
    add_eq_nan_iff.mpr (.inl (plain_eq_nan h))
  rw [velocity_accented, if_neg fun hle => (ne_nan_of_le hle).1 hsum]

theorem Accepted.plain_le_accented (h : c.Accepted) (hline : c.line size ≠ .nan)
    (hbonus : ¬ c.accentBonus < 0) : c.plain size ≤ c.velocity size true := by
  obtain ⟨hminimum, hmaximum⟩ := h.plain_between hline
  rw [velocity_accented]
  split
  · rename_i hle
    have hdefined : c.accentBonus ≠ .nan := fun hnan =>
      (ne_nan_of_le hle).1 (add_eq_nan_iff.mpr (.inr (.inl hnan)))
    have hpositive : 0 ≤ c.accentBonus :=
      le_of_not_lt hdefined (ne_nan_of_le zero_nonneg).1 hbonus
    exact le_add_of_nonneg (nonneg_of_le h.minimum_nonneg hminimum) hpositive
  · exact hmaximum

/-- **Velocities stay in range.** Where the curve places a size, the velocity is a number
from zero to one between the bounds, with an accent if the bonus is not negative, and the
accent takes nothing away.  Elsewhere it is undefined, and with an accent the maximum.
With an accent it never exceeds the maximum. -/
theorem velocity_in_range {settings : Settings Float} {config : Config Float}
    (h : settings.config = .ok config) {size : Float} (hsize : 0 < size) :
    let c := config.velocity
    (c.Places size → ∀ accent, (accent = true → ¬ c.accentBonus < 0) →
      (0 ≤ c.velocity size accent ∧ c.velocity size accent ≤ 1.0) ∧
      (c.minimum ≤ c.velocity size accent ∧ c.velocity size accent ≤ c.maximum) ∧
      c.velocity size false ≤ c.velocity size accent) ∧
    (¬ c.Places size → c.velocity size false = .nan ∧ c.velocity size true = c.maximum) ∧
    c.velocity size true ≤ c.maximum := by
  intro c
  have haccepted : c.Accepted := Settings.accepted_velocity h
  rw [velocity_unaccented]
  refine ⟨fun hplaces accent hbonus => ?_, fun hplaces => ?_, haccepted.accented_le size⟩
  · have hline := (haccepted.places_iff hsize).mp hplaces
    obtain ⟨hminimum, hmaximum⟩ := haccepted.plain_between hline
    have hnonneg := nonneg_of_le haccepted.minimum_nonneg hminimum
    have hmore : c.plain size ≤ c.velocity size accent := by
      cases accent with
      | false => exact (velocity_unaccented c size).symm ▸ le_self (ne_nan_of_le hminimum).2
      | true => exact haccepted.plain_le_accented hline (hbonus rfl)
    have hless : c.velocity size accent ≤ c.maximum := by
      cases accent with
      | false => exact (velocity_unaccented c size).symm ▸ hmaximum
      | true => exact haccepted.accented_le size
    have hnonneg' := nonneg_of_le hnonneg hmore
    exact ⟨⟨hnonneg', le_trans_of_nonneg hnonneg' hless haccepted.maximum_le_one⟩,
      ⟨le_trans_of_nonneg haccepted.minimum_nonneg hminimum hmore, hless⟩, hmore⟩
  · have hline : c.line size = .nan :=
      not_not.mp (mt (haccepted.places_iff hsize).mpr hplaces)
    exact ⟨plain_eq_nan hline, accented_of_nan hline⟩

/-- The standard curve, and one whose low mark is undefined. -/
theorem velocity_in_range_standard :
    let standard : Settings Float := {}
    let unmarked : Settings Float := { low := some .nan }
    ∃ config config', standard.config = .ok config ∧ unmarked.config = .ok config' ∧
      (∀ size, 0 < size → ∀ accent, 0.5 ≤ config.velocity.velocity size accent ∧
        config.velocity.velocity size accent ≤ 1.0) ∧
      config'.velocity.velocity 12.0 false = .nan := by
  intro standard unmarked
  have h : standard.config = .ok standard.fill := Settings.config_empty_binary64
  have h' : unmarked.config = .ok unmarked.fill :=
    Settings.config_eq_ok_iff.mpr ⟨by decide +kernel, rfl⟩
  refine ⟨_, _, h, h', fun size hsize accent => ?_, ?_⟩
  · have hplaces : standard.fill.velocity.Places size :=
      .of_lt (by decide +kernel) (by decide +kernel) (by decide +kernel) (by decide +kernel) size
    exact ((velocity_in_range h hsize).1 hplaces accent fun _ => by decide +kernel).2.1
  · exact ((velocity_in_range h' (by decide +kernel)).2.1 fun hplaces =>
      hplaces.low (by decide +kernel)).1

/-- What settings are not checked for: an undefined mark, a negative bonus, and equal bounds
with a size too many spans away. -/
theorem velocity_leaves_range :
    let unmarked : Settings Float := { low := some .nan }
    let fading : Settings Float := { minimum := some 1.0, accentBonus := some (-1.0) }
    let flat : Settings Float := { minimum := some 1.0 }
    (unmarked.fault? = none ∧ unmarked.velocity.velocity 9.0 false = .nan) ∧
      (fading.fault? = none ∧ fading.velocity.velocity 9.0 true < fading.velocity.minimum ∧
        fading.velocity.velocity 9.0 true < fading.velocity.velocity 9.0 false) ∧
      (flat.fault? = none ∧ flat.velocity.velocity 1e308 false = .nan) := by
  decide +kernel

end VelocityCurve

end ProseScore
