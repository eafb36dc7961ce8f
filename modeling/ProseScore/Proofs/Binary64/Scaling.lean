import ProseScore.Proofs.Binary64.Difference

/-!
# Portions of binary64 numbers

More than half of a number is still a number of its sign.  Half of the least one would
be rounded to zero, more than that is not, and what is no more than a finite number
does not become infinite.
-/

namespace ProseScore.Binary64

open Float.Model (Format UnpackedFloat)
open Float.Model.UnpackedFloat

/-! ## More than a half -/

theorem nearest_pos {m k : Nat} (h : 2 ^ k < 2 * m) : 0 < nearest m k := by
  rcases Nat.lt_or_ge m (2 ^ k) with hlt | hge
  · rw [nearest, Nat.mod_eq_of_lt hlt, if_neg (by omega), if_neg (by omega)]
    exact Nat.succ_pos _
  · exact (Nat.div_pos hge (Nat.two_pow_pos k)).trans_le (le_nearest m k)

/-- The mantissa `q` over `2 ^ k`, more than one half and one at most. -/
structure Portion (q k : Nat) : Prop where
  full : 2 ^ 52 ≤ q
  le : q ≤ 2 ^ k
  more : 2 ^ k < 2 * q

section Product

variable {m q k : Nat} {e : Int}

theorem Portion.le_target (h : Portion q k) (hm : 0 < m) : e - k ≤ target (m * q) (e - k) := by
  have hfull : 2 ^ 52 ≤ m * q := h.full.trans (Nat.le_mul_of_pos_left q hm)
  have hlog := (Nat.le_log2 (Nat.ne_of_gt (Nat.lt_of_lt_of_le (by decide) hfull))).mpr hfull
  rw [target]
  omega

theorem Portion.target_le (h : Portion q k) (hx : Proper m e) : target (m * q) (e - k) ≤ e := by
  have hpos : 0 < m * q := Nat.mul_pos hx.pos (Nat.lt_of_lt_of_le (by decide) h.full)
  have hlog : (m * q).log2 < 53 + k := by
    rw [Nat.log2_lt hpos.ne', Nat.pow_add]
    calc m * q ≤ m * 2 ^ k := Nat.mul_le_mul_left m h.le
      _ < 2 ^ 53 * 2 ^ k := Nat.mul_lt_mul_of_pos_right hx.lt (Nat.two_pow_pos k)
  have hle := hx.le
  rw [target]
  omega

/-- A portion of a number is rounded to a proper one, and its exponent is not greater. -/
theorem Portion.exists_round (h : Portion q k) (hx : Proper m e) (s : Sign) :
    ∃ n f hn, Proper n f ∧
      roundWithAccuracy .binary64 s (m * q) (e - k) .exact = .finite s n f hn ∧ f ≤ e := by
  have htarget : e - k ≤ target (m * q) (e - k) := h.le_target hx.pos
  have hupper : target (m * q) (e - k) ≤ e := h.target_le hx
  have hpos : 0 < m * q := Nat.mul_pos hx.pos (Nat.lt_of_lt_of_le (by decide) h.full)
  have hfull := le_nearest_target hpos htarget
  have hnearest : 0 < nearest (m * q) (target (m * q) (e - k) - (e - k)).toNat := by
    rcases hfull with hfull | hmin
    · exact Nat.lt_of_lt_of_le (by decide) hfull
    · -- Of the last bit that is kept, more than one half is there.
      have hle := hx.le
      have hshift : (target (m * q) (e - k) - (e - k)).toNat ≤ k := by omega
      apply nearest_pos
      calc 2 ^ (target (m * q) (e - k) - (e - k)).toNat
          ≤ 2 ^ k := Nat.pow_le_pow_right (by decide) hshift
        _ < 2 * q := h.more
        _ ≤ 2 * (m * q) := Nat.mul_le_mul_left 2 (Nat.le_mul_of_pos_left q hx.pos)
  obtain ⟨n, f, hn, hproper, hround, hcases⟩ :=
    exists_roundWithAccuracy (s := s) htarget hnearest hfull
  refine ⟨n, f, hn, hproper, hround, ?_⟩
  rcases hcases with ⟨-, rfl⟩ | ⟨hover, rfl⟩
  · exact hupper
  · refine Int.add_one_le_of_lt (lt_of_le_of_ne hupper fun heq => ?_)
    -- With the exponent of the whole, a portion does not have one bit more.
    have hshift : (target (m * q) (e - k) - (e - k)).toNat = k := by omega
    have hbound : m * q ≤ (2 ^ 53 - 1) * 2 ^ k :=
      Nat.mul_le_mul (Nat.le_pred_of_lt hx.lt) h.le
    have hless := nearest_le_of_le hbound
    rw [hshift] at hover
    omega

end Product

/-! ## Positive and finite numbers -/

theorem pos_and_isFinite_iff {x : Float} : 0 < x ∧ x.isFinite = true ↔
    ∃ m e hm, x.toModel.unpack = .finite .positive m e hm := by
  have hfinite : x.isFinite = x.toModel.unpack.isFinite := rfl
  rw [lt_iff_compare, unpack_zero, hfinite]
  constructor
  · rintro ⟨hpos, hfinite⟩
    generalize x.toModel.unpack = u at hpos hfinite
    cases u with
    | notANumber => cases hpos
    | infinity s => cases hfinite
    | zero s => cases hpos
    | finite s m e hm =>
        cases s with
        | positive => exact ⟨m, e, hm, rfl⟩
        | negative => cases hpos
  · rintro ⟨m, e, hm, hx⟩
    rw [hx]
    exact ⟨rfl, rfl⟩

theorem isFinite_neg (x : Float) : (-x).isFinite = x.isFinite := by
  show (Float.Model.pack (UnpackedFloat.neg x.toModel.unpack)).unpack.isFinite =
    x.toModel.unpack.isFinite
  cases hu : x.toModel.unpack with
  | notANumber => rfl
  | infinity s => cases s <;> rfl
  | zero s => cases s <;> rfl
  | finite s m e hm =>
      obtain ⟨hproper, he⟩ := proper_of_unpack hu
      have hneg : (Float.Model.pack (.finite (-s) m e hm)).unpack = .finite (-s) m e hm :=
        (unpack_pack hproper).trans (if_pos he)
      show (Float.Model.pack (.finite (-s) m e hm)).unpack.isFinite = true
      rw [hneg]
      rfl

theorem pos_and_isFinite_mul {x c : Float} {q k : Nat} {hq : 0 < q} (h : Portion q k)
    (hc : c.toModel.unpack = .finite .positive q (-k) hq) (hx : 0 < x ∧ x.isFinite = true) :
    0 < x * c ∧ (x * c).isFinite = true := by
  obtain ⟨m, e, hm, hu⟩ := pos_and_isFinite_iff.mp hx
  obtain ⟨hproper, he⟩ := proper_of_unpack hu
  obtain ⟨n, f, hn, hpart, hround, hf⟩ := h.exists_round hproper .positive
  rw [pos_and_isFinite_iff]
  refine ⟨n, f, hn, ?_⟩
  show (Float.Model.pack (.mul .binary64 x.toModel.unpack c.toModel.unpack)).unpack = _
  have hmul : UnpackedFloat.mul .binary64 (.finite .positive m e hm) (.finite .positive q (-k) hq) =
      roundWithAccuracy .binary64 .positive (m * q) (e - k) .exact := rfl
  rw [hu, hc, hmul, hround, unpack_pack hpart, if_pos (hf.trans he)]

end ProseScore.Binary64
