import ProseScore.Proofs.Binary64.Rank

/-!
# Sums of binary64 numbers

A sum is rounded to the nearest number, and to an even mantissa from the middle.
So a positive number moves another one on unless it is less than half of the step
that the other one's exponent allows, or just half of it and the mantissa is even.
-/

namespace ProseScore.Binary64

open Float.Model (Format UnpackedFloat)
open Float.Model.UnpackedFloat

/-! ## Rounding -/

/-- The quotient by a power of two that is nearest, the even one of two. -/
def nearest (m k : Nat) : Nat :=
  if 2 * (m % 2 ^ k) < 2 ^ k then m / 2 ^ k
  else if 2 * (m % 2 ^ k) = 2 ^ k then m / 2 ^ k + m / 2 ^ k % 2
  else m / 2 ^ k + 1

theorem le_nearest (m k : Nat) : m / 2 ^ k ≤ nearest m k := by
  rw [nearest]
  split
  · exact le_refl _
  · split <;> omega

theorem nearest_le (m k : Nat) : nearest m k ≤ m / 2 ^ k + 1 := by
  rw [nearest]
  split
  · omega
  · split <;> omega

theorem mod_two_pow_succ (m k : Nat) : m % 2 ^ (k + 1) = m / 2 ^ k % 2 * 2 ^ k + m % 2 ^ k := by
  rw [Nat.pow_succ, Nat.mod_mul, Nat.add_comm, Nat.mul_comm]

/-- The bits that are shifted out: the last one, and whether there was another. -/
theorem shiftRight_exact (m k : Nat) :
    ExtendedMantissa.mk m false false >>> (k + 1) =
      ⟨m / 2 ^ (k + 1), m / 2 ^ k % 2 != 0, m % 2 ^ k != 0⟩ := by
  induction k with
  | zero =>
      show (ExtendedMantissa.mk m false false).shiftRightOne = _
      rw [ExtendedMantissa.shiftRightOne, Nat.pow_zero, Nat.div_one, Nat.mod_one]
      rfl
  | succ k ih =>
      show ExtendedMantissa.shiftRightOne (ExtendedMantissa.mk m false false >>> (k + 1)) = _
      have hpos : 0 < 2 ^ k := Nat.two_pow_pos k
      have hsticky : (m / 2 ^ k % 2 != 0 || m % 2 ^ k != 0) = (m % 2 ^ (k + 1) != 0) := by
        rw [mod_two_pow_succ, Bool.eq_iff_iff]
        simp only [Bool.or_eq_true, bne_iff_ne, ne_eq, Nat.add_eq_zero_iff, Nat.mul_eq_zero,
          hpos.ne', or_false, not_and_or]
      rw [ih, ExtendedMantissa.shiftRightOne, Nat.div_div_eq_div_mul, ← Nat.pow_succ, hsticky]

theorem roundedMantissa_shiftRight (m k : Nat) :
    (ExtendedMantissa.mk m false false >>> k).roundedMantissa = nearest m k := by
  cases k with
  | zero =>
      show m = nearest m 0
      rw [nearest, Nat.pow_zero, Nat.div_one, Nat.mod_one]
      rfl
  | succ k =>
      have hpos : 0 < 2 ^ k := Nat.two_pow_pos k
      have hlt : m % 2 ^ k < 2 ^ k := Nat.mod_lt m hpos
      rw [shiftRight_exact, ExtendedMantissa.roundedMantissa, nearest, mod_two_pow_succ,
        Nat.pow_succ]
      rcases Nat.mod_two_eq_zero_or_one (m / 2 ^ k) with hbit | hbit
      · rw [hbit, Nat.zero_mul, Nat.zero_add, if_pos (by omega)]
        by_cases hrest : m % 2 ^ k = 0
        · rw [hrest]
          rfl
        · rw [bne_iff_ne.mpr hrest]
          rfl
      · rw [hbit, Nat.one_mul, if_neg (by omega)]
        by_cases hrest : m % 2 ^ k = 0
        · rw [hrest, if_pos (by omega)]
          rfl
        · rw [bne_iff_ne.mpr hrest, if_neg (by omega)]
          rfl

/-! ## A positive mantissa -/

/-- The exponent that a number is rounded to. -/
def target (m : Nat) (e : Int) : Int :=
  max (m.log2 + e - 52) (-1074)

theorem targetExponent_eq (m : Nat) (e : Int) :
    Format.binary64.targetExponent (Float.Model.totalExponent m e) = target m e := by
  have hbits : Format.binary64.mantissaBits = 53 := rfl
  have hmin : Format.binary64.minExponent = -1074 := rfl
  rw [Format.targetExponent, Float.Model.totalExponent, hbits, hmin, target]
  congr 1
  omega

theorem div_target_lt (m : Nat) {e : Int} : m / 2 ^ (target m e - e).toNat < 2 ^ 53 := by
  rw [Nat.div_lt_iff_lt_mul (Nat.two_pow_pos _), ← Nat.pow_add]
  refine Nat.lt_of_lt_of_le Nat.lt_log2_self (Nat.pow_le_pow_right (by decide) ?_)
  rw [target]
  omega

theorem le_div_target {m : Nat} {e : Int} (hm : 0 < m) (he : e ≤ target m e)
    (hmin : target m e ≠ -1074) : 2 ^ 52 ≤ m / 2 ^ (target m e - e).toNat := by
  rw [Nat.le_div_iff_mul_le (Nat.two_pow_pos _), ← Nat.pow_add]
  have hlog : 52 + (target m e - e).toNat = m.log2 := by
    rw [target] at he hmin ⊢
    omega
  rw [hlog]
  exact Nat.log2_self_le hm.ne'

/-- What is left of a mantissa that is rounded to a proper exponent: no more than one bit
too many. -/
theorem exists_shift {m : Nat} {e : Int} (hm : 0 < m) (hle : m ≤ 2 ^ 53) (he : -1074 ≤ e)
    (hfull : 2 ^ 52 ≤ m ∨ e = -1074) :
    ∃ n f, Proper n f ∧ shiftToTargetExponent .binary64 m e .exact = (⟨n, false, false⟩, f) ∧
      (n = m ∧ f = e ∨ m = 2 ^ 53 ∧ f = e + 1) := by
  rw [shiftToTargetExponent, targetExponent_eq]
  rcases Nat.lt_or_eq_of_le hle with hlt | rfl
  · have htarget : (target m e - e).toNat = 0 := by
      have hlog := (Nat.log2_lt hm.ne').mpr hlt
      rw [target]
      omega
    refine ⟨m, e, ⟨hm, hlt, he, hfull⟩, ?_, Or.inl ⟨rfl, rfl⟩⟩
    rw [shiftToExponent, htarget]
    exact congrArg (Prod.mk _) (by simp)
  · have htarget : (target (2 ^ 53) e - e).toNat = 1 := by
      rw [target, Nat.log2_two_pow]
      omega
    refine ⟨2 ^ 52, e + 1, ⟨by decide, by decide, by omega, Or.inl (le_refl _)⟩, ?_,
      Or.inr ⟨rfl, rfl⟩⟩
    rw [shiftToExponent, htarget]
    rfl

/-- A mantissa is rounded to the nearest one with its target exponent, unless that is zero. -/
theorem exists_roundWithAccuracy {s : Sign} {m : Nat} {e : Int} (htarget : e ≤ target m e)
    (hpos : 0 < nearest m (target m e - e).toNat)
    (hfull : 2 ^ 52 ≤ nearest m (target m e - e).toNat ∨ target m e = -1074) :
    ∃ n f hn, Proper n f ∧
      roundWithAccuracy .binary64 s m e .exact = .finite s n f hn ∧
      (n = nearest m (target m e - e).toNat ∧ f = target m e ∨
        nearest m (target m e - e).toNat = 2 ^ 53 ∧ f = target m e + 1) := by
  have hle : nearest m (target m e - e).toNat ≤ 2 ^ 53 :=
    (nearest_le _ _).trans (Nat.succ_le_of_lt (div_target_lt m))
  have hmin : -1074 ≤ target m e := Int.le_max_right _ _
  obtain ⟨n, f, hproper, hshift, hcases⟩ := exists_shift hpos hle hmin hfull
  refine ⟨n, f, hproper.pos, hproper, ?_, hcases⟩
  have hexponent : e + ((target m e - e).toNat : Int) = target m e := by omega
  have hfirst : shiftToTargetExponent .binary64 m e .exact =
      (ExtendedMantissa.mk m false false >>> (target m e - e).toNat, target m e) := by
    rw [shiftToTargetExponent, targetExponent_eq, shiftToExponent]
    exact Prod.ext rfl hexponent
  simp only [roundWithAccuracy, hfirst, roundedMantissa_shiftRight, hshift]
  exact dif_neg hproper.pos.ne'

theorem le_nearest_target {m : Nat} {e : Int} (hm : 0 < m) (htarget : e ≤ target m e) :
    2 ^ 52 ≤ nearest m (target m e - e).toNat ∨ target m e = -1074 := by
  by_cases hmin : target m e = -1074
  · exact Or.inr hmin
  · exact Or.inl ((le_div_target hm htarget hmin).trans (le_nearest _ _))

/-- A positive mantissa is rounded to the nearest one with its target exponent. -/
theorem exists_round {s : Sign} {m : Nat} {e : Int} (hm : 0 < m) (he : -1074 ≤ e)
    (htarget : e ≤ target m e) :
    ∃ n f hn, Proper n f ∧
      UnpackedFloat.round .binary64 s m e = .finite s n f hn ∧
      (n = nearest m (target m e - e).toNat ∧ f = target m e ∨
        nearest m (target m e - e).toNat = 2 ^ 53 ∧ f = target m e + 1) := by
  have hfull := le_nearest_target hm htarget
  have hpos : 0 < nearest m (target m e - e).toNat := by
    rcases hfull with hfull | hmin
    · exact Nat.lt_of_lt_of_le (by decide) hfull
    · have hzero : (target m e - e).toNat = 0 := by omega
      have hle := le_nearest m 0
      rw [Nat.pow_zero, Nat.div_one] at hle
      rw [hzero]
      exact hm.trans_le hle
  have hsame : (e - target m e).toNat = 0 := by omega
  have hdecrease : decreaseExponent m e (target m e) = (m, e) := by
    rw [decreaseExponent, hsame]
    exact Prod.ext rfl (Int.sub_zero e)
  rw [UnpackedFloat.round, targetExponent_eq, hdecrease]
  exact exists_roundWithAccuracy htarget hpos hfull

/-! ## Sums -/

/-- The step of the exponent `e` is more than twice the second number, or just twice and the
mantissa `m` is even. -/
def Lost (m : Nat) (e : Int) (q : Nat) (f : Int) : Prop :=
  2 * q < 2 ^ (e - f).toNat ∨ 2 * q = 2 ^ (e - f).toNat ∧ m % 2 = 0

/-- The mantissa of an exact sum, for the smaller one of both exponents. -/
def aligned (m : Nat) (e : Int) (q : Nat) (f : Int) : Nat :=
  m * 2 ^ (e - min e f).toNat + q * 2 ^ (f - min e f).toNat

section Aligned

variable {m q : Nat} {e f : Int}

theorem aligned_of_lt (h : f < e) : aligned m e q f = m * 2 ^ (e - f).toNat + q := by
  rw [aligned, Int.min_eq_right (Int.le_of_lt h), Int.sub_self, Int.toNat_zero, Nat.pow_zero,
    Nat.mul_one]

theorem aligned_of_le (h : e ≤ f) : aligned m e q f = m + q * 2 ^ (f - e).toNat := by
  rw [aligned, Int.min_eq_left h, Int.sub_self, Int.toNat_zero, Nat.pow_zero, Nat.mul_one]

theorem le_target_aligned (hx : Proper m e) : e ≤ target (aligned m e q f) (min e f) := by
  rcases hx.full with hfull | rfl
  · have hle : 2 ^ (52 + (e - min e f).toNat) ≤ aligned m e q f := by
      rw [Nat.pow_add]
      exact (Nat.mul_le_mul_right _ hfull).trans (Nat.le_add_right _ _)
    have hpos : aligned m e q f ≠ 0 := by
      have hpow := Nat.two_pow_pos (52 + (e - min e f).toNat)
      omega
    have hlog := (Nat.le_log2 hpos).mpr hle
    rw [target]
    omega
  · rw [target]
    omega

theorem Lost.lt (h : Lost m e q f) (hq : 0 < q) : f < e := by
  by_contra hle
  have hzero : (e - f).toNat = 0 := by omega
  rw [Lost, hzero] at h
  omega

theorem Lost.lt_step (h : Lost m e q f) (hq : 0 < q) : q < 2 ^ (e - f).toNat := by
  rw [Lost] at h
  omega

theorem Lost.target_eq (h : Lost m e q f) (hx : Proper m e) (hq : 0 < q) :
    target (aligned m e q f) (min e f) = e := by
  have hlt := h.lt hq
  have hless : aligned m e q f < 2 ^ (53 + (e - f).toNat) := by
    rw [aligned_of_lt hlt, Nat.pow_add]
    calc m * 2 ^ (e - f).toNat + q
        < m * 2 ^ (e - f).toNat + 2 ^ (e - f).toNat := Nat.add_lt_add_left (h.lt_step hq) _
      _ = (m + 1) * 2 ^ (e - f).toNat := (Nat.succ_mul _ _).symm
      _ ≤ 2 ^ 53 * 2 ^ (e - f).toNat := Nat.mul_le_mul_right _ hx.lt
  have hpos : aligned m e q f ≠ 0 := by
    rw [aligned_of_lt hlt]
    omega
  have hlog := (Nat.log2_lt hpos).mpr hless
  have hle := le_target_aligned hx (q := q) (f := f)
  have hmin := hx.le
  rw [target] at hle ⊢
  omega

theorem nearest_aligned_of_lt (h : f < e) (hq : q < 2 ^ (e - f).toNat) :
    nearest (aligned m e q f) (e - min e f).toNat =
      if 2 * q < 2 ^ (e - f).toNat then m
      else if 2 * q = 2 ^ (e - f).toNat then m + m % 2 else m + 1 := by
  have hmod : (m * 2 ^ (e - f).toNat + q) % 2 ^ (e - f).toNat = q := by
    rw [Nat.add_comm, Nat.add_mul_mod_self_right, Nat.mod_eq_of_lt hq]
  have hdiv : (m * 2 ^ (e - f).toNat + q) / 2 ^ (e - f).toNat = m := by
    rw [Nat.add_comm, Nat.add_mul_div_right _ _ (Nat.two_pow_pos _), Nat.div_eq_of_lt hq,
      Nat.zero_add]
  rw [aligned_of_lt h, Int.min_eq_right (Int.le_of_lt h), nearest, hmod, hdiv]

theorem Lost.nearest_eq (h : Lost m e q f) (hq : 0 < q) :
    nearest (aligned m e q f) (e - min e f).toNat = m := by
  rw [nearest_aligned_of_lt (h.lt hq) (h.lt_step hq)]
  rcases h with hless | ⟨hhalf, heven⟩
  · rw [if_pos hless]
  · rw [if_neg (by omega), if_pos hhalf, heven, Nat.add_zero]

theorem lt_nearest_of_not_lost (h : ¬ Lost m e q f) (hq : 0 < q) :
    m < nearest (aligned m e q f) (e - min e f).toNat := by
  rw [Lost, not_or, not_and] at h
  obtain ⟨hless, hhalf⟩ := h
  rcases Int.lt_or_le f e with hlt | hle
  · by_cases hstep : q < 2 ^ (e - f).toNat
    · rw [nearest_aligned_of_lt hlt hstep, if_neg hless]
      split
      · have hodd := hhalf ‹_›
        omega
      · exact Nat.lt_succ_self m
    · -- Already the quotient is greater.
      have hmore : (m + 1) * 2 ^ (e - f).toNat ≤ aligned m e q f := by
        rw [aligned_of_lt hlt, Nat.succ_mul]
        omega
      have hdiv := (Nat.le_div_iff_mul_le (Nat.two_pow_pos _)).mpr hmore
      rw [Int.min_eq_right (Int.le_of_lt hlt)]
      exact Nat.lt_of_succ_le (hdiv.trans (le_nearest _ _))
  · have hzero : (e - min e f).toNat = 0 := by omega
    have hmore : m < aligned m e q f := by
      rw [aligned_of_le hle]
      exact Nat.lt_add_of_pos_right (Nat.mul_pos hq (Nat.two_pow_pos _))
    have hdiv := le_nearest (aligned m e q f) 0
    rw [Nat.pow_zero, Nat.div_one] at hdiv
    rw [hzero]
    exact hmore.trans_le hdiv

end Aligned

/-! ## Numbers -/

/-- A sum with the second number is lost: the first one is infinite, or its step is too
great. -/
def Stalls (x p : Float) : Prop :=
  match x.toModel.unpack, p.toModel.unpack with
  | .infinity _, _ => True
  | .finite _ m e _, .finite _ q f _ => Lost m e q f
  | _, _ => False

theorem add_finite (m q : Nat) (e f : Int) (hm : 0 < m) (hq : 0 < q) :
    UnpackedFloat.add .binary64 (.finite .positive m e hm) (.finite .positive q f hq) =
      UnpackedFloat.round .binary64 .positive (aligned m e q f) (min e f) := by
  have hmantissa : Sign.positive.apply (m <<< (e - min e f).toNat : Nat) +
      Sign.positive.apply (q <<< (f - min e f).toNat : Nat) = (aligned m e q f : Int) := by
    rw [aligned, Nat.shiftLeft_eq, Nat.shiftLeft_eq]
    rfl
  have hpos : 0 < aligned m e q f :=
    Nat.add_pos_left (Nat.mul_pos hm (Nat.two_pow_pos _)) _
  have hcompare : compare (aligned m e q f : Int) 0 = .gt :=
    Int.compare_eq_gt.mpr (Int.natCast_pos.mpr hpos)
  rw [UnpackedFloat.add]
  simp only [decreaseExponent, hmantissa]
  rw [UnpackedFloat.normalize, hcompare, Int.toNat_natCast]

/-- The sum of two positive numbers has the target exponent of the exact sum and the nearest
mantissa, or if that has one bit too many, the next exponent. -/
theorem exists_sum {x p : Float} {m q : Nat} {e f : Int} {hm : 0 < m} {hq : 0 < q}
    (hx : x.toModel.unpack = .finite .positive m e hm)
    (hp : p.toModel.unpack = .finite .positive q f hq) :
    let t := target (aligned m e q f) (min e f)
    let r := nearest (aligned m e q f) (t - min e f).toNat
    ∃ n g hn, Proper n g ∧ (x + p).toModel.unpack =
        (if g ≤ 971 then .finite .positive n g hn else .infinity .positive) ∧
      (n = r ∧ g = t ∨ r = 2 ^ 53 ∧ g = t + 1) := by
  intro t r
  have hproper := (proper_of_unpack hx).1
  have hproper' := (proper_of_unpack hp).1
  have hpos : 0 < aligned m e q f :=
    Nat.add_pos_left (Nat.mul_pos hm (Nat.two_pow_pos _)) _
  have hmin : -1074 ≤ min e f := Int.le_min.mpr ⟨hproper.le, hproper'.le⟩
  have htarget : min e f ≤ t := Int.le_trans (Int.min_le_left e f) (le_target_aligned hproper)
  obtain ⟨n, g, hn, hsum, hround, hcases⟩ := exists_round hpos hmin htarget
  refine ⟨n, g, hn, hsum, ?_, hcases⟩
  show (Float.Model.pack (UnpackedFloat.add .binary64 x.toModel.unpack p.toModel.unpack)).unpack = _
  rw [hx, hp, add_finite, hround, unpack_pack hsum]

theorem unpack_add (x p : Float) : (x + p).toModel.unpack =
    (Float.Model.pack
      (UnpackedFloat.add .binary64 x.toModel.unpack p.toModel.unpack)).unpack := rfl

theorem unpack_pack_infinity :
    (Float.Model.pack (.infinity .positive)).unpack = .infinity .positive := rfl

theorem infinity_add {v : UnpackedFloat} (h : Nonnegative v) :
    UnpackedFloat.add .binary64 (.infinity .positive) v = .infinity .positive := by
  cases h <;> rfl

theorem add_infinity {u : UnpackedFloat} (h : Nonnegative u) :
    UnpackedFloat.add .binary64 u (.infinity .positive) = .infinity .positive := by
  cases h <;> rfl

/-- A sum in which the second number is lost is the first one. -/
theorem Stalls.add_eq {x p : Float} (h : Stalls x p) (hx : 0 ≤ x) (hp : 0 < p) : x + p = x := by
  apply eq_of_unpack_eq
  rw [nonneg_iff] at hx
  have hp' := nonneg_iff.mp (nonneg_of_pos hp)
  rw [Stalls] at h
  generalize hu : x.toModel.unpack = u at hx h
  generalize hv : p.toModel.unpack = v at hp' h
  cases hx with
  | zero s => cases hp' <;> cases h
  | infinity => rw [unpack_add, hu, hv, infinity_add hp', unpack_pack_infinity]
  | @finite m e hm =>
      cases hp' with
      | zero s => cases h
      | infinity => cases h
      | @finite q f hq =>
          obtain ⟨hproper, he⟩ := proper_of_unpack hu
          have hlost : Lost m e q f := h
          obtain ⟨n, g, hn, hsum, hunpack, hcases⟩ := exists_sum hu hv
          rw [hlost.target_eq hproper hq, hlost.nearest_eq hq] at hcases
          rcases hcases with ⟨rfl, rfl⟩ | ⟨hm', -⟩
          · rw [hunpack, if_pos he]
          · exact absurd hm' (Nat.ne_of_lt hproper.lt)

theorem lt_rank_of_unpack {x y : Float} {m n : Nat} {e g : Int} {hm : 0 < m} {hn : 0 < n}
    (hx : x.toModel.unpack = .finite .positive m e hm)
    (hy : y.toModel.unpack = if g ≤ 971 then .finite .positive n g hn else .infinity .positive)
    (hg : e < g ∨ e = g ∧ m < n) : 0 ≤ y ∧ rank x < rank y := by
  obtain ⟨hproper, he⟩ := proper_of_unpack hx
  rw [nonneg_iff, rank_of_finite hx, rank, hy]
  split
  · refine ⟨.finite, ?_⟩
    have hmin := hproper.le
    have hlt := hproper.lt
    show (e + 1074).toNat * 2 ^ 53 + m < (g + 1074).toNat * 2 ^ 53 + n
    omega
  · exact ⟨.infinity, hproper.rank_lt he⟩

theorem lt_rank_of_infinity {x y : Float} {m : Nat} {e : Int} {hm : 0 < m}
    (hx : x.toModel.unpack = .finite .positive m e hm)
    (hy : y.toModel.unpack = .infinity .positive) : 0 ≤ y ∧ rank x < rank y := by
  obtain ⟨hproper, he⟩ := proper_of_unpack hx
  rw [nonneg_iff, rank_of_finite hx, rank, hy]
  exact ⟨.infinity, hproper.rank_lt he⟩

theorem unpack_zero_add {x p : Float} {s : Sign} (hx : x.toModel.unpack = .zero s) (hp : 0 < p) :
    (x + p).toModel.unpack = p.toModel.unpack := by
  have hrank := rank_pos hp
  have hp' := nonneg_iff.mp (nonneg_of_pos hp)
  rw [rank] at hrank
  rw [unpack_add, hx]
  generalize hv : p.toModel.unpack = v at hp' hrank
  cases hp' with
  | zero s => exact absurd hrank (Nat.lt_irrefl 0)
  | infinity => rw [add_infinity (.zero s), unpack_pack_infinity]
  | finite =>
      obtain ⟨hproper, hf⟩ := proper_of_unpack hv
      exact (unpack_pack hproper).trans (if_pos hf)

/-- A sum in which the second number is not lost is greater than the first one. -/
theorem lt_rank_add {x p : Float} (h : ¬ Stalls x p) (hx : 0 ≤ x) (hp : 0 < p) :
    0 ≤ x + p ∧ rank x < rank (x + p) := by
  have hpnonneg := nonneg_of_pos hp
  have hppos := rank_pos hp
  rw [nonneg_iff] at hx
  rw [Stalls] at h
  generalize hu : x.toModel.unpack = u at hx h
  cases hx with
  | zero s =>
      have hsum := unpack_zero_add hu hp
      rw [nonneg_iff, hsum, ← nonneg_iff]
      rw [rank, hu, rank, hsum]
      exact ⟨hpnonneg, hppos⟩
  | infinity => exact absurd trivial h
  | @finite m e hm =>
      have hp' := nonneg_iff.mp hpnonneg
      generalize hv : p.toModel.unpack = v at hp' h
      cases hp' with
      | zero s =>
          rw [rank, hv] at hppos
          exact absurd hppos (Nat.lt_irrefl 0)
      | infinity =>
          apply lt_rank_of_infinity hu
          rw [unpack_add, hu, hv, add_infinity .finite, unpack_pack_infinity]
      | @finite q f hq =>
          have hlost : ¬ Lost m e q f := h
          have hproper := (proper_of_unpack hu).1
          obtain ⟨n, g, hn, hsum, hunpack, hcases⟩ := exists_sum hu hv
          apply lt_rank_of_unpack hu hunpack
          have htarget := le_target_aligned hproper (q := q) (f := f)
          have hnearest := lt_nearest_of_not_lost hlost hq
          rcases Int.lt_or_eq_of_le htarget with hlt | heq
          · left
            omega
          · rw [← heq] at hcases
            omega

theorem add_nonneg {x p : Float} (hx : 0 ≤ x) (hp : 0 < p) : 0 ≤ x + p := by
  by_cases h : Stalls x p
  · rw [h.add_eq hx hp]
    exact hx
  · exact (lt_rank_add h hx hp).1

theorem le_add {x p : Float} (hx : 0 ≤ x) (hp : 0 < p) : x ≤ x + p := by
  rw [le_iff_rank hx (add_nonneg hx hp)]
  by_cases h : Stalls x p
  · rw [h.add_eq hx hp]
  · exact (lt_rank_add h hx hp).2.le

theorem rank_add_zero {x p : Float} {s : Sign} (hx : 0 ≤ x) (hp : p.toModel.unpack = .zero s) :
    0 ≤ x + p ∧ rank (x + p) = rank x := by
  rw [nonneg_iff] at hx ⊢
  rw [rank, rank, unpack_add, hp]
  generalize hu : x.toModel.unpack = u at hx
  cases hx with
  | zero t => cases s <;> cases t <;> exact ⟨.zero _, rfl⟩
  | infinity =>
      rw [infinity_add (.zero s), unpack_pack_infinity]
      exact ⟨.infinity, rfl⟩
  | @finite m e hm =>
      obtain ⟨hproper, he⟩ := proper_of_unpack hu
      have hsum : (Float.Model.pack (UnpackedFloat.add .binary64 (.finite .positive m e hm)
          (.zero s))).unpack = .finite .positive m e hm :=
        (unpack_pack hproper).trans (if_pos he)
      rw [hsum]
      exact ⟨.finite, rfl⟩

theorem le_add_of_nonneg {x p : Float} (hx : 0 ≤ x) (hp : 0 ≤ p) : x ≤ x + p := by
  by_cases hpos : 0 < p
  · exact le_add hx hpos
  · rw [lt_iff_compare, unpack_zero] at hpos
    have hzero := nonneg_iff.mp hp
    generalize hv : p.toModel.unpack = v at hpos hzero
    cases hzero with
    | zero s =>
        obtain ⟨hnonneg, hrank⟩ := rank_add_zero hx hv
        rw [le_iff_rank hx hnonneg, hrank]
    | finite => exact absurd rfl hpos
    | infinity => exact absurd rfl hpos

/-- A positive number moves another one on exactly if it is not lost in the sum. -/
theorem lt_add_iff {x p : Float} (hx : 0 ≤ x) (hp : 0 < p) : x < x + p ↔ ¬ Stalls x p := by
  rw [lt_iff_rank hx (add_nonneg hx hp)]
  refine ⟨fun hlt h => ?_, fun h => (lt_rank_add h hx hp).2⟩
  rw [h.add_eq hx hp] at hlt
  exact Nat.lt_irrefl _ hlt

end ProseScore.Binary64
