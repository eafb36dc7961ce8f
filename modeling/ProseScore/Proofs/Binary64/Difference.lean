import ProseScore.Proofs.Binary64.Sum
import ProseScore.Proofs.Binary64.Undefined

/-!
# Differences of binary64 numbers

Cancellation loses nothing: where the exponent goes down, the mantissa is not rounded.
So a difference is zero only between numbers that are equal, and between finite
numbers that are not negative it stays finite.
-/

namespace ProseScore.Binary64

open Float.Model (Format UnpackedFloat)
open Float.Model.UnpackedFloat

/-! ## Rounding after a cancellation -/

theorem log2_mul_two_pow {m : Nat} (hm : 0 < m) (k : Nat) : (m * 2 ^ k).log2 = m.log2 + k := by
  induction k with
  | zero => rw [Nat.pow_zero, Nat.mul_one, Nat.add_zero]
  | succ k ih =>
      have hpos : m * 2 ^ k ≠ 0 := (Nat.mul_pos hm (Nat.two_pow_pos k)).ne'
      rw [Nat.pow_succ', Nat.mul_left_comm, Nat.log2_two_mul hpos, ih, Nat.add_assoc]

theorem target_mul_two_pow {m : Nat} (hm : 0 < m) (e : Int) (k : Nat) :
    target (m * 2 ^ k) (e - k) = target m e := by
  rw [target, target, log2_mul_two_pow hm]
  congr 1
  omega

/-- A short mantissa is shifted up before it is rounded. -/
theorem round_shifted {s : Sign} {m : Nat} {e : Int} (hm : 0 < m) :
    let k := (e - target m e).toNat
    UnpackedFloat.round .binary64 s (m * 2 ^ k) (e - k) =
      UnpackedFloat.round .binary64 s m e := by
  intro k
  have hzero : ((e - k) - target m e).toNat = 0 := by omega
  rw [UnpackedFloat.round, UnpackedFloat.round, targetExponent_eq, targetExponent_eq,
    target_mul_two_pow hm]
  simp only [decreaseExponent, hzero, Nat.shiftLeft_eq, Nat.pow_zero, Nat.mul_one]
  rw [Int.natCast_zero, Int.sub_zero]

theorem nearest_le_of_le {m n k : Nat} (h : m ≤ n * 2 ^ k) : nearest m k ≤ n := by
  have hdiv : m / 2 ^ k ≤ n := Nat.div_le_of_le_mul (by rwa [Nat.mul_comm])
  rcases Nat.lt_or_eq_of_le hdiv with hlt | heq
  · exact (nearest_le m k).trans hlt
  · have hsplit := Nat.div_add_mod m (2 ^ k)
    rw [heq, Nat.mul_comm] at hsplit
    have hmod : m % 2 ^ k = 0 := by omega
    rw [nearest, hmod, heq, if_pos (by simp)]

/-- A mantissa is rounded to the nearest one that is not longer than 53 bits, and to one of
the greater exponent where it is rounded up to 54 bits. -/
theorem exists_round_shifted {s : Sign} {m : Nat} {e : Int} (hm : 0 < m) (he : -1074 ≤ e) :
    let k := (e - target m e).toNat
    ∃ n f hn, Proper n f ∧ UnpackedFloat.round .binary64 s m e = .finite s n f hn ∧
      (f = target m e ∨
        nearest (m * 2 ^ k) (target m e - (e - k)).toNat = 2 ^ 53 ∧ f = target m e + 1) := by
  intro k
  have htarget := target_mul_two_pow hm e k
  have hleast : -1074 ≤ target m e := Int.le_max_right _ _
  have hmin : -1074 ≤ e - k := by omega
  obtain ⟨n, f, hn, hproper, hround, hcases⟩ := exists_round (s := s)
    (Nat.mul_pos hm (Nat.two_pow_pos k)) hmin (by omega)
  rw [round_shifted hm] at hround
  rw [htarget] at hcases
  exact ⟨n, f, hn, hproper, hround, hcases.imp_left And.right⟩

/-- What is not above the greatest number of an exponent is rounded to one that has this
exponent at most. -/
theorem exists_round_le {s : Sign} {m : Nat} {e c : Int} (hm : 0 < m) (he : -1074 ≤ e)
    (hc : e ≤ c) (hle : m ≤ (2 ^ 53 - 1) * 2 ^ (c - e).toNat) :
    ∃ n f hn, Proper n f ∧ UnpackedFloat.round .binary64 s m e = .finite s n f hn ∧ f ≤ c := by
  obtain ⟨n, f, hn, hproper, hround, hcases⟩ := exists_round_shifted (s := s) hm he
  refine ⟨n, f, hn, hproper, hround, ?_⟩
  have hlog : m.log2 < 53 + (c - e).toNat := by
    rw [Nat.log2_lt hm.ne', Nat.pow_add]
    exact hle.trans_lt (Nat.mul_lt_mul_of_pos_right (by decide) (Nat.two_pow_pos _))
  have htarget : target m e ≤ c := by
    rw [target]
    omega
  rcases hcases with rfl | ⟨hnearest, rfl⟩
  · exact htarget
  · refine Int.add_one_le_of_lt (lt_of_le_of_ne htarget ?_)
    rintro rfl
    have hzero : (e - target m e).toNat = 0 := by omega
    rw [hzero, Nat.pow_zero, Nat.mul_one, Int.natCast_zero, Int.sub_zero] at hnearest
    have hbound := nearest_le_of_le hle
    omega

/-! ## Exact differences -/

/-- A number that fits into its format, but for the greatest exponent. -/
def Rounded : UnpackedFloat → Prop
  | .finite _ m e _ => Proper m e
  | _ => True

theorem rounded_unpack (x : Float) : Rounded x.toModel.unpack := by
  cases hu : x.toModel.unpack with
  | finite s m e hm => exact (proper_of_unpack hu).1
  | _ => trivial

theorem isZero_pack_iff {u : UnpackedFloat} (h : Rounded u) :
    IsZero (.ofModel (.pack u)) ↔ ∃ s, u = .zero s := by
  show (∃ s, (Float.Model.pack u).unpack = .zero s) ↔ _
  cases u with
  | notANumber => exact iff_of_false nofun nofun
  | infinity s => cases s <;> exact iff_of_false nofun nofun
  | zero s => cases s <;> exact iff_of_true ⟨_, rfl⟩ ⟨_, rfl⟩
  | finite s m e hm =>
      have hproper : Proper m e := h
      rw [unpack_pack hproper]
      split <;> exact iff_of_false nofun nofun

theorem isInf_pack_iff {u : UnpackedFloat} (h : Rounded u) :
    (Float.ofModel (.pack u)).isInf = true ↔
      (∃ s, u = .infinity s) ∨ ∃ s m e hm, u = .finite s m e hm ∧ 971 < e := by
  rw [isInf_iff]
  show (∃ s, (Float.Model.pack u).unpack = .infinity s) ↔ _
  cases u with
  | notANumber => exact iff_of_false nofun nofun
  | infinity s => cases s <;> exact iff_of_true ⟨_, rfl⟩ (.inl ⟨_, rfl⟩)
  | zero s => cases s <;> exact iff_of_false nofun nofun
  | finite s m e hm =>
      have hproper : Proper m e := h
      rw [unpack_pack hproper]
      by_cases he : e ≤ 971
      · rw [if_pos he]
        simp [he]
      · rw [if_neg he]
        simp [hm, not_le.mp he]

/-- The mantissa of an exact difference, for the smaller one of both exponents. -/
def spread (s : Sign) (m : Nat) (e : Int) (t : Sign) (n : Nat) (f : Int) : Int :=
  s.apply (m * 2 ^ (e - min e f).toNat : Nat) - t.apply (n * 2 ^ (f - min e f).toNat : Nat)

theorem sub_finite {s t : Sign} {m n : Nat} {e f : Int} {hm : 0 < m} {hn : 0 < n} :
    UnpackedFloat.sub .binary64 (.finite s m e hm) (.finite t n f hn) =
      UnpackedFloat.normalize .binary64 (spread s m e t n f) (min e f) .positive := by
  rw [UnpackedFloat.sub, spread]
  simp only [decreaseExponent, Nat.shiftLeft_eq]

theorem exists_normalize {d : Int} (hd : d ≠ 0) (e : Int) (z : Sign) :
    ∃ s, UnpackedFloat.normalize .binary64 d e z =
      UnpackedFloat.round .binary64 s d.natAbs e := by
  rw [UnpackedFloat.normalize]
  rcases Int.lt_or_gt_of_ne hd with hlt | hgt
  · have habs : (-d).toNat = d.natAbs := by omega
    rw [Int.compare_eq_lt.mpr hlt]
    exact ⟨.negative, habs ▸ rfl⟩
  · have habs : d.toNat = d.natAbs := by omega
    rw [Int.compare_eq_gt.mpr hgt]
    exact ⟨.positive, habs ▸ rfl⟩

theorem normalize_zero (e : Int) : UnpackedFloat.normalize .binary64 0 e .positive =
    .zero .positive :=
  rfl

theorem Rounded.normalize {d e : Int} (he : -1074 ≤ e) (z : Sign) :
    Rounded (UnpackedFloat.normalize .binary64 d e z) := by
  rcases eq_or_ne d 0 with rfl | hd
  · trivial
  · obtain ⟨s, hnormalize⟩ := exists_normalize hd e z
    obtain ⟨n, f, hn, hproper, hround, -⟩ :=
      exists_round_shifted (s := s) (Int.natAbs_pos.mpr hd) he
    rw [hnormalize, hround]
    exact hproper

theorem Rounded.sub {u v : UnpackedFloat} (hu : Rounded u) (hv : Rounded v) :
    Rounded (.sub .binary64 u v) := by
  cases u with
  | notANumber => trivial
  | infinity s =>
      cases v with
      | infinity t => cases s <;> cases t <;> trivial
      | _ => trivial
  | zero s =>
      cases v with
      | zero t => cases s <;> cases t <;> trivial
      | finite t n f hn => exact hv
      | _ => trivial
  | finite s m e hm =>
      cases v with
      | finite t n f hn =>
          have hproper : Proper m e := hu
          have hproper' : Proper n f := hv
          rw [sub_finite]
          exact .normalize (Int.le_min.mpr ⟨hproper.le, hproper'.le⟩) _
      | zero t => exact hu
      | _ => trivial

theorem Proper.eq_of_shift_eq {m n : Nat} {e f : Int} (h : Proper m e) (h' : Proper n f)
    (heq : m * 2 ^ (e - min e f).toNat = n * 2 ^ (f - min e f).toNat) : m = n ∧ e = f := by
  -- The mantissa of the greater exponent has all bits, so the other one would have more.
  have hlonger {m n k : Nat} (hfull : 2 ^ 52 ≤ n) (hlt : m < 2 ^ 53) (hk : k ≠ 0) :
      m ≠ n * 2 ^ k := by
    have hpow : 2 ^ 1 ≤ 2 ^ k := Nat.pow_le_pow_right (by decide) (Nat.pos_of_ne_zero hk)
    have hmore := Nat.mul_le_mul hfull hpow
    omega
  have hle := h.le
  have hle' := h'.le
  rcases Int.lt_trichotomy e f with hlt | rfl | hlt
  · rw [Int.min_eq_left hlt.le, Int.sub_self, Int.toNat_zero, Nat.pow_zero, Nat.mul_one] at heq
    exact absurd heq (hlonger (h'.full.resolve_right (by omega)) h.lt (by omega))
  · rw [Int.min_self, Int.sub_self, Int.toNat_zero, Nat.pow_zero, Nat.mul_one, Nat.mul_one] at heq
    exact ⟨heq, rfl⟩
  · rw [Int.min_eq_right hlt.le, Int.sub_self, Int.toNat_zero, Nat.pow_zero, Nat.mul_one] at heq
    exact absurd heq.symm (hlonger (h.full.resolve_right (by omega)) h'.lt (by omega))

theorem spread_eq_zero_iff {s t : Sign} {m n : Nat} {e f : Int} (h : Proper m e)
    (h' : Proper n f) : spread s m e t n f = 0 ↔ s = t ∧ m = n ∧ e = f := by
  have hpos := Nat.mul_pos h.pos (Nat.two_pow_pos (e - min e f).toNat)
  have hpos' := Nat.mul_pos h'.pos (Nat.two_pow_pos (f - min e f).toNat)
  have hsame := h.eq_of_shift_eq h'
  constructor
  · intro hzero
    cases s <;> cases t <;> simp only [spread, Sign.apply] at hzero
    · exact ⟨rfl, hsame (by omega)⟩
    · omega
    · omega
    · exact ⟨rfl, hsame (by omega)⟩
  · rintro ⟨rfl, rfl, rfl⟩
    exact Int.sub_self _

theorem normalize_eq_zero_iff {d e : Int} (he : -1074 ≤ e) :
    (∃ s, UnpackedFloat.normalize .binary64 d e .positive = .zero s) ↔ d = 0 := by
  refine ⟨fun hzero => ?_, fun hzero => ⟨.positive, hzero ▸ rfl⟩⟩
  by_contra hd
  obtain ⟨t, hnormalize⟩ := exists_normalize hd e .positive
  obtain ⟨n, f, hn, -, hround, -⟩ := exists_round_shifted (s := t) (Int.natAbs_pos.mpr hd) he
  rw [hnormalize, hround] at hzero
  exact absurd hzero nofun

/-! ## Numbers -/

theorem isZero_sub_iff {x y : Float} : IsZero (x - y) ↔ (x ≤ y ∧ y ≤ x) ∧ ¬ x.isInf := by
  rw [show x - y = .ofModel (.pack (.sub _ _ _)) from rfl,
    isZero_pack_iff ((rounded_unpack x).sub (rounded_unpack y)), le_and_ge_iff, ne_eq, eq_nan_iff,
    isInf_iff, IsZero, IsZero, ← unpack_inj]
  have hx := rounded_unpack x
  have hy := rounded_unpack y
  generalize x.toModel.unpack = u at hx
  generalize y.toModel.unpack = v at hy
  cases u <;> cases v
  case finite.finite s m e hm t n f hn =>
    have hproper : Proper m e := hx
    have hproper' : Proper n f := hy
    have hmin : -1074 ≤ min e f := Int.le_min.mpr ⟨hproper.le, hproper'.le⟩
    rw [sub_finite, normalize_eq_zero_iff hmin, spread_eq_zero_iff hproper hproper']
    simp
  case infinity.infinity s t =>
    rw [UnpackedFloat.sub]
    split <;> simp
  case zero.zero s t =>
    rw [UnpackedFloat.sub]
    split <;> simp
  all_goals simp [UnpackedFloat.sub]

theorem natAbs_spread_le {m n : Nat} {e f : Int} (h : Proper m e) (h' : Proper n f) :
    (spread .positive m e .positive n f).natAbs ≤
      (2 ^ 53 - 1) * 2 ^ (max e f - min e f).toNat := by
  have hle : m * 2 ^ (e - min e f).toNat ≤ (2 ^ 53 - 1) * 2 ^ (max e f - min e f).toNat :=
    Nat.mul_le_mul (Nat.le_pred_of_lt h.lt) (Nat.pow_le_pow_right (by decide) (by omega))
  have hle' : n * 2 ^ (f - min e f).toNat ≤ (2 ^ 53 - 1) * 2 ^ (max e f - min e f).toNat :=
    Nat.mul_le_mul (Nat.le_pred_of_lt h'.lt) (Nat.pow_le_pow_right (by decide) (by omega))
  rw [spread, Sign.apply, Sign.apply]
  omega

/-- A difference does not go beyond both numbers if these are not negative. -/
theorem not_isInf_sub {x y : Float} (hx : 0 ≤ x) (hy : 0 ≤ y) (hx' : ¬ x.isInf)
    (hy' : ¬ y.isInf) : ¬ (x - y).isInf := by
  rw [show x - y = .ofModel (.pack (.sub _ _ _)) from rfl,
    isInf_pack_iff ((rounded_unpack x).sub (rounded_unpack y))]
  rw [isInf_iff] at hx' hy'
  rw [nonneg_iff] at hx hy
  generalize hu : x.toModel.unpack = u at hx hx'
  generalize hv : y.toModel.unpack = v at hy hy'
  cases hx with
  | infinity => exact absurd ⟨_, rfl⟩ hx'
  | zero s =>
      cases hy with
      | infinity => exact absurd ⟨_, rfl⟩ hy'
      | zero t =>
          rw [UnpackedFloat.sub]
          split <;> simp
      | @finite n f hn => simp [UnpackedFloat.sub, (proper_of_unpack hv).2]
  | @finite m e hm =>
      obtain ⟨hproper, he⟩ := proper_of_unpack hu
      cases hy with
      | infinity => exact absurd ⟨_, rfl⟩ hy'
      | zero t => simp [UnpackedFloat.sub, he]
      | @finite n f hn =>
          obtain ⟨hproper', hf⟩ := proper_of_unpack hv
          rw [sub_finite]
          rcases eq_or_ne (spread .positive m e .positive n f) 0 with hzero | hne
          · rw [hzero, normalize_zero]
            simp
          · obtain ⟨s, hnormalize⟩ := exists_normalize hne (min e f) .positive
            obtain ⟨q, g, hq, -, hround, hg⟩ := exists_round_le (s := s)
              (Int.natAbs_pos.mpr hne) (Int.le_min.mpr ⟨hproper.le, hproper'.le⟩)
              (min_le_max) (natAbs_spread_le hproper hproper')
            rw [hnormalize, hround]
            simp [hg.trans (max_le he hf)]

end ProseScore.Binary64
