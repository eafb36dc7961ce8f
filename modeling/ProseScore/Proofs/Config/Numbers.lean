import ProseScore.Config.Reading
import ProseScore.Proofs.Binary64.Scaling
import ProseScore.Proofs.Config.Faults

/-!
# The numbers of accepted settings

Durations and the size are positive and finite, and velocities lie between zero and one
in their order.  Only the marks of the curve may be undefined: they are compared with
each other, and an undefined number is neither above nor below another one.
-/

namespace ProseScore

open Binary64

theorem Timing.standard_pos_and_isFinite (t : Timing) :
    0 < (standard t : Float) ∧ (standard t : Float).isFinite = true := by
  cases t <;> decide +kernel

def Config.timing (c : Config Float) : Timing → Float
  | .base => c.baseDuration
  | .rest => c.restDuration
  | .fallback => c.fallbackPeriod

/-! ## Sizes -/

theorem Numeral.isFinite_of_value? {n : Numeral} {x : Float} (h : n.value? = some x) :
    x.isFinite = true := by
  obtain ⟨hfinite, hx⟩ := Option.ite_none_right_eq_some.mp h
  obtain rfl := Option.some_inj.mp hx
  split
  · exact (isFinite_neg _).trans hfinite
  · exact hfinite

namespace Size

/-- A unit of sizes is more than half a point and no more than one. -/
theorem exists_portion_split (s : Text) : ∃ (q k : Nat) (hq : 0 < q),
    (split s : Text × Float).2.toModel.unpack = .finite .positive q (-k) hq ∧ Portion q k := by
  have hpixel : (0.75 : Float).toModel.unpack = .finite .positive (3 * 2 ^ 51) (-(53 : Nat)) _ :=
    rfl
  have hpoint : (1.0 : Float).toModel.unpack = .finite .positive (2 ^ 52) (-(52 : Nat)) _ := rfl
  rw [split]
  split
  · exact ⟨3 * 2 ^ 51, 53, by decide, hpixel, by decide, by decide, by decide⟩
  · exact ⟨2 ^ 52, 52, by decide, hpoint, by decide, by decide, by decide⟩
  · exact ⟨2 ^ 52, 52, by decide, hpoint, by decide, by decide, by decide⟩

theorem pos_and_isFinite_of_ofText? {s : Text} {size : Float} (h : ofText? s = some size) :
    0 < size ∧ size.isFinite = true := by
  obtain ⟨q, k, hq, hunit, hpart⟩ := exists_portion_split (Text.trim s)
  obtain ⟨x, hx, hsize⟩ := Option.bind_eq_some_iff.mp h
  obtain ⟨n, -, hvalue⟩ := Option.bind_eq_some_iff.mp hx
  obtain ⟨hpos, hproduct⟩ := Option.ite_none_right_eq_some.mp hsize
  obtain rfl := Option.some_inj.mp hproduct
  exact pos_and_isFinite_mul hpart hunit ⟨hpos, Numeral.isFinite_of_value? hvalue⟩

end Size

/-! ## Marks and bounds -/

namespace VelocityCurve.Accepted

variable {c : VelocityCurve Float}

theorem minimum_le (h : c.Accepted) : c.minimum ≤ c.maximum :=
  le_of_not_lt (ne_nan_of_le h.maximum_nonneg).2 (ne_nan_of_le h.minimum_nonneg).2 h.ordered

theorem low_lt_high_iff (h : c.Accepted) : c.low < c.high ↔ c.low ≠ .nan ∧ c.high ≠ .nan := by
  refine ⟨ne_nan_of_lt, fun ⟨hlow, hhigh⟩ => ?_⟩
  by_contra hlt
  exact h.apart (le_of_not_lt hlow hhigh hlt)

end VelocityCurve.Accepted

theorem getD_ne_nan_iff {given : Option Float} {standard : Float} (h : standard ≠ .nan) :
    given.getD standard ≠ .nan ↔ given ≠ some .nan := by
  cases given <;> simp [h]

/-! ## Settings -/

/-- The settings of a file, none of them checked.  An empty file chooses nothing. -/
def Settings.ofFile? (file : Text) : Option (Settings Float) :=
  if (Text.trim file).isEmpty then some {} else (Yaml.mapping? file).bind ofMapping?

/-- The numbers of a configuration are sound and come from the settings: each is the given
one, a size in points, or the standard one.  The low mark is below the high mark unless
an undefined one is given. -/
structure Config.Sound (config : Config Float) (settings : Settings Float) : Prop where
  timing (t : Timing) : 0 < config.timing t ∧ (config.timing t).isFinite = true
  timing_eq (t : Timing) : config.timing t = (settings.timing t).getD (Timing.standard t)
  size : 0 < config.baseSize ∧ config.baseSize.isFinite = true
  size_eq : settings.baseSize = none ∧ config.baseSize = 12.0 ∨
    ∃ given, settings.baseSize = some given ∧ Size.ofText? given = some config.baseSize
  marks : config.velocity.low < config.velocity.high ↔
    settings.low ≠ some .nan ∧ settings.high ≠ some .nan
  marks_eq : config.velocity.low = settings.low.getD 12.0 ∧
    config.velocity.high = settings.high.getD 24.0
  bounds : 0 ≤ config.velocity.minimum ∧ config.velocity.minimum ≤ config.velocity.maximum ∧
    config.velocity.maximum ≤ 1.0
  bounds_eq : config.velocity.minimum = settings.minimum.getD 0.5 ∧
    config.velocity.maximum = settings.maximum.getD 1.0

namespace Config

variable {settings : Settings Float} {config : Config Float}

theorem timing_sound (h : settings.config = .ok config) (t : Timing) :
    config.timing t = (settings.timing t).getD (Timing.standard t) ∧
      0 < config.timing t ∧ (config.timing t).isFinite = true := by
  obtain ⟨hfault, rfl⟩ := Settings.config_eq_ok_iff.mp h
  have heq : settings.fill.timing t = (settings.timing t).getD (Timing.standard t) := by
    cases t <;> rfl
  refine ⟨heq, ?_⟩
  rw [heq]
  cases hx : settings.timing t with
  | none => exact t.standard_pos_and_isFinite
  | some x => exact (Settings.accepted_timing hfault hx).symm

theorem baseSize_eq (h : settings.config = .ok config) :
    settings.baseSize = none ∧ config.baseSize = 12.0 ∨
      ∃ given, settings.baseSize = some given ∧ Size.ofText? given = some config.baseSize := by
  obtain ⟨hfault, rfl⟩ := Settings.config_eq_ok_iff.mp h
  cases hgiven : settings.baseSize with
  | none => exact .inl ⟨rfl, by simp [Settings.fill, hgiven, standard]⟩
  | some given =>
      obtain ⟨size, hsize⟩ := Settings.accepted_size hfault hgiven
      exact .inr ⟨given, rfl, by simp [Settings.fill, hgiven, hsize]⟩

theorem baseSize_sound (h : settings.config = .ok config) :
    0 < config.baseSize ∧ config.baseSize.isFinite = true := by
  rcases baseSize_eq h with ⟨-, hstandard⟩ | ⟨given, -, hsize⟩
  · rw [hstandard]
    decide +kernel
  · exact Size.pos_and_isFinite_of_ofText? hsize

theorem sound_of_config (h : settings.config = .ok config) : config.Sound settings := by
  have haccepted := Settings.accepted_velocity h
  have hvelocity : config.velocity = settings.velocity :=
    (Settings.config_eq_ok_iff.mp h).2 ▸ rfl
  exact {
    timing := fun t => (timing_sound h t).2
    timing_eq := fun t => (timing_sound h t).1
    size := baseSize_sound h
    size_eq := baseSize_eq h
    marks := by
      rw [haccepted.low_lt_high_iff, hvelocity]
      exact and_congr (getD_ne_nan_iff (by decide +kernel)) (getD_ne_nan_iff (by decide +kernel))
    marks_eq := hvelocity ▸ ⟨rfl, rfl⟩
    bounds := ⟨haccepted.minimum_nonneg, haccepted.minimum_le, haccepted.maximum_le_one⟩
    bounds_eq := hvelocity ▸ ⟨rfl, rfl⟩ }

/-- A file makes a configuration exactly if it can be read and its settings have no fault. -/
theorem ofText_eq_ok_iff {file : Text} : ofText file = .ok config ↔
    ∃ settings, Settings.ofFile? file = some settings ∧ settings.config = .ok config := by
  rw [ofText, Settings.ofFile?]
  split
  · simp [Settings.config_empty_binary64]
  · cases (Yaml.mapping? file).bind Settings.ofMapping? with
    | none => simp
    | some settings => cases hconfig : settings.config <;> simp [Except.mapError, hconfig]

/-- **The numbers of accepted settings are sound.**  The durations and the size are positive
and finite, the velocities lie between zero and one in their order, and each number is
the given one or the standard one.  The low mark is below the high one unless an
undefined mark is given. -/
theorem numbers_sound (config : Config Float) :
    (∀ settings : Settings Float, settings.config = .ok config → config.Sound settings) ∧
      ∀ file : Text, ofText file = .ok config →
        ∃ settings, Settings.ofFile? file = some settings ∧ config.Sound settings := by
  refine ⟨fun settings => sound_of_config, fun file h => ?_⟩
  obtain ⟨settings, hfile, hsettings⟩ := ofText_eq_ok_iff.mp h
  exact ⟨settings, hfile, sound_of_config hsettings⟩

/-- The least number of pixels is still a size, and marks may be infinite. -/
theorem numbers_sound_least :
    let settings : Settings Float :=
      { baseSize := some "5e-324px".toList, low := some (-1 / 0), high := some (1 / 0) }
    settings.config = .ok settings.fill ∧ settings.fill.baseSize = 5e-324 ∧
      settings.fill.velocity.low < settings.fill.velocity.high := by
  intro settings
  have h : settings.config = .ok settings.fill :=
    Settings.config_eq_ok_iff.mpr ⟨by decide +kernel, rfl⟩
  have hsound := (numbers_sound settings.fill).1 settings h
  exact ⟨h, by decide +kernel, hsound.marks.mpr ⟨by decide +kernel, by decide +kernel⟩⟩

/-- The check that compares the marks does not see an undefined one. -/
theorem accepts_undefined_mark :
    ∃ config, ofText "velocity-low-px: .nan\n".toList = .ok config ∧
      ¬ config.velocity.low < config.velocity.high := by
  have haccepted : (match ofText "velocity-low-px: .nan\n".toList with
      | .ok config => decide (config.velocity.low < config.velocity.high)
      | .error _ => true) = false := by
    decide +kernel
  split at haccepted
  · exact ⟨_, ‹_›, of_decide_eq_false haccepted⟩
  · cases haccepted

end Config

end ProseScore
