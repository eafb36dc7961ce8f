import Mathlib
import ProseScore.Scalar

/-!
# Binary64 numbers in their order

A binary64 number that is not negative is zero, a mantissa times a power of two,
or infinite.  Its rank says how far up it stands among them, so that comparisons
of numbers are comparisons of ranks.
-/

namespace ProseScore.Binary64

open Float.Model (Format UnpackedFloat)
open Float.Model.UnpackedFloat

/-- A mantissa and an exponent in their one proper form: the mantissa has all of
its 53 bits unless the exponent is the least one. -/
structure Proper (m : Nat) (e : Int) : Prop where
  pos : 0 < m
  lt : m < 2 ^ 53
  le : -1074 ≤ e
  full : 2 ^ 52 ≤ m ∨ e = -1074

theorem Proper.log2_eq {m : Nat} {e : Int} (h : Proper m e) (hfull : 2 ^ 52 ≤ m) :
    m.log2 = 52 :=
  (Nat.log2_eq_iff h.pos.ne').mpr ⟨hfull, h.lt⟩

/-! ## Numbers and their bits -/

theorem toNat_one_append (v : BitVec 52) : (1#1 ++ v).toNat = 2 ^ 52 + v.toNat := by
  rw [BitVec.toNat_append, ← Nat.shiftLeft_add_eq_or_of_lt v.isLt]
  rfl

theorem proper_of_unpack {x : Float} {s : Sign} {m : Nat} {e : Int} {hm : 0 < m}
    (h : x.toModel.unpack = .finite s m e hm) : Proper m e ∧ e ≤ 971 := by
  rw [Float.Model.unpack, UnpackedFloat.unpack] at h
  let mantissa := @unpackMantissa .binary64 x.toModel.toBits.toBitVec
  let exponent := @unpackExponent .binary64 x.toModel.toBits.toBitVec
  have hmantissa : mantissa.toNat < 2 ^ 52 := mantissa.isLt
  have hexponent : exponent.toNat < 2 ^ 11 := exponent.isLt
  dsimp only at h
  split at h
  · split at h <;> cases h
  · rename_i htop
    have htop : exponent.toNat ≠ 2047 := fun heq => htop (BitVec.eq_of_toNat_eq heq)
    split at h
    · rename_i hleast
      split at h
      · cases h
      · obtain ⟨-, hm', he⟩ := UnpackedFloat.finite.inj h
        have hm' : mantissa.toNat = m := hm'
        have he : (exponent.toNat : Int) - (1023 + 52) + 1 = e := he
        have hleast : exponent.toNat = 0 := congrArg BitVec.toNat hleast
        exact ⟨⟨hm, by omega, by omega, Or.inr (by omega)⟩, by omega⟩
    · rename_i hleast
      obtain ⟨-, hm', he⟩ := UnpackedFloat.finite.inj h
      have hm' : 2 ^ 52 + mantissa.toNat = m := (toNat_one_append mantissa).symm.trans hm'
      have he : (exponent.toNat : Int) - (1023 + 52) = e := he
      have hleast : exponent.toNat ≠ 0 := fun heq => hleast (BitVec.eq_of_toNat_eq heq)
      exact ⟨⟨hm, by omega, by omega, Or.inl (by omega)⟩, by omega⟩

theorem eq_of_unpack_eq {x y : Float} (h : x.toModel.unpack = y.toModel.unpack) : x = y := by
  rw [← Float.toBits_inj, ← UInt64.toBitVec_inj]
  exact (unpack_inj_of_valid x.toModel.valid y.toModel.valid).mp h

theorem unpack_pack_of_full {s : Sign} {m : Nat} {e : Int} {hm : 0 < m} (h : Proper m e)
    (hfull : 2 ^ 52 ≤ m) (he : e ≤ 971) :
    (Float.Model.pack (.finite s m e hm)).unpack = .finite s m e hm := by
  have hle := h.le
  have hlt := h.lt
  have hbiased : (e + Format.binary64.exponentBias +
      Format.binary64.mantissaBitsWithoutImplicit).toNat = (e + 1075).toNat := by
    show (e + (1023 : Nat) + (52 : Nat)).toNat = _
    omega
  have hpack : UnpackedFloat.pack .binary64 (.finite s m e hm) =
      packComponents .binary64 s (BitVec.ofNat 11 (e + 1075).toNat) (BitVec.ofNat 52 m) := by
    have hbits : 52 + 1 = Format.binary64.mantissaBits := rfl
    rw [UnpackedFloat.pack]
    simp only [hbiased, h.log2_eq hfull]
    rw [if_neg (by omega), if_pos hbits]
  have hexponent : (BitVec.ofNat 11 (e + 1075).toNat).toNat = (e + 1075).toNat :=
    (BitVec.toNat_ofNat _ _).trans (Nat.mod_eq_of_lt (by omega))
  have hmantissa : (1#1 ++ BitVec.ofNat 52 m).toNat = m := by
    rw [toNat_one_append, BitVec.toNat_ofNat]
    omega
  have htop : BitVec.ofNat 11 (e + 1075).toNat ≠ -1#11 := fun heq => by
    have heq := congrArg BitVec.toNat heq
    rw [hexponent] at heq
    have htop : (-1#11).toNat = 2047 := rfl
    omega
  have hleast : BitVec.ofNat 11 (e + 1075).toNat ≠ 0#11 := fun heq => by
    have heq := congrArg BitVec.toNat heq
    rw [hexponent] at heq
    have hleast : (0#11).toNat = 0 := rfl
    omega
  show UnpackedFloat.unpack .binary64 (UnpackedFloat.pack .binary64 _) = _
  rw [hpack, UnpackedFloat.unpack]
  simp only [unpackMantissa_packComponents, unpackExponent_packComponents,
    unpackSign_packComponents, Sign.ofBitVec_toBitVec, if_neg htop, if_neg hleast, hmantissa,
    hexponent]
  congr 1
  show ((e + 1075).toNat : Int) - ((1023 : Nat) + (52 : Nat)) = e
  omega

theorem unpack_pack_of_lt {s : Sign} {m : Nat} {hm : 0 < m} (hlt : m < 2 ^ 52) :
    (Float.Model.pack (.finite s m (-1074) hm)).unpack = .finite s m (-1074) hm := by
  have hlog : m.log2 + 1 ≠ Format.binary64.mantissaBits := by
    show m.log2 + 1 ≠ 53
    have hlog := (Nat.log2_lt hm.ne').mpr hlt
    omega
  have hpack : UnpackedFloat.pack .binary64 (.finite s m (-1074) hm) =
      packComponents .binary64 s 0#11 (BitVec.ofNat 52 m) := by
    rw [UnpackedFloat.pack]
    simp only
    rw [if_neg (by decide), if_neg hlog]
  have hmantissa : (BitVec.ofNat 52 m).toNat = m :=
    (BitVec.toNat_ofNat _ _).trans (Nat.mod_eq_of_lt hlt)
  have hne : BitVec.ofNat 52 m ≠ 0#52 := fun heq =>
    hm.ne' (hmantissa.symm.trans (congrArg BitVec.toNat heq))
  have htop : (0#11 : BitVec 11) ≠ -1#11 := by decide
  show UnpackedFloat.unpack .binary64 (UnpackedFloat.pack .binary64 _) = _
  rw [hpack, UnpackedFloat.unpack]
  simp only [unpackMantissa_packComponents, unpackExponent_packComponents,
    unpackSign_packComponents, Sign.ofBitVec_toBitVec, if_neg htop, dif_neg hne, hmantissa]
  rfl

/-- A proper number is packed as it is, unless it is too large to be finite. -/
theorem unpack_pack {s : Sign} {m : Nat} {e : Int} {hm : 0 < m} (h : Proper m e) :
    (Float.Model.pack (.finite s m e hm)).unpack =
      if e ≤ 971 then .finite s m e hm else .infinity s := by
  by_cases he : e ≤ 971
  · rw [if_pos he]
    by_cases hfull : 2 ^ 52 ≤ m
    · exact unpack_pack_of_full h hfull he
    · obtain rfl := h.full.resolve_left hfull
      exact unpack_pack_of_lt (not_le.mp hfull)
  · have hpack : UnpackedFloat.pack .binary64 (.finite s m e hm) = packedInfinity .binary64 s := by
      have hlarge : 2 ^ Format.binary64.exponentBits ≤ (e + Format.binary64.exponentBias +
          Format.binary64.mantissaBitsWithoutImplicit).toNat + 1 := by
        show 2 ^ 11 ≤ (e + (1023 : Nat) + (52 : Nat)).toNat + 1
        omega
      rw [UnpackedFloat.pack]
      exact if_pos hlarge
    show UnpackedFloat.unpack .binary64 (UnpackedFloat.pack .binary64 _) = _
    rw [if_neg he, hpack]
    cases s <;> rfl

/-! ## Ranks -/

/-- How far up a number stands among those that are not negative. -/
def rank (x : Float) : Nat :=
  match x.toModel.unpack with
  | .finite _ m e _ => (e + 1074).toNat * 2 ^ 53 + m
  | .infinity _ => 2046 * 2 ^ 53
  | _ => 0

theorem rank_of_finite {x : Float} {s : Sign} {m : Nat} {e : Int} {hm : 0 < m}
    (h : x.toModel.unpack = .finite s m e hm) : rank x = (e + 1074).toNat * 2 ^ 53 + m := by
  rw [rank, h]

theorem Proper.rank_lt {m : Nat} {e : Int} (h : Proper m e) (he : e ≤ 971) :
    (e + 1074).toNat * 2 ^ 53 + m < 2046 * 2 ^ 53 := by
  have hlt := h.lt
  have hle := h.le
  omega

theorem rank_le (x : Float) : rank x ≤ 2046 * 2 ^ 53 := by
  rw [rank]
  split
  · obtain ⟨hproper, he⟩ := proper_of_unpack ‹_›
    exact (hproper.rank_lt he).le
  · exact le_refl _
  · exact Nat.zero_le _

theorem le_iff_compare {x y : Float} :
    x ≤ y ↔ (x.toModel.unpack.compare y.toModel.unpack).any (·.isLE) = true := by
  show decide (x.toModel ≤ y.toModel) = true ↔ _
  rw [decide_eq_true_iff]
  rfl

theorem lt_iff_compare {x y : Float} :
    x < y ↔ x.toModel.unpack.compare y.toModel.unpack = some .lt := by
  show decide (x.toModel < y.toModel) = true ↔ _
  rw [decide_eq_true_iff]
  show (x.toModel.unpack.compare y.toModel.unpack == some .lt) = true ↔ _
  rw [beq_iff_eq]

theorem unpack_zero : (0 : Float).toModel.unpack = .zero .positive :=
  rfl

/-- The exponents decide before the mantissas. -/
theorem compare_proper {m n : Nat} {e f : Int} (h : Proper m e) (h' : Proper n f) :
    (compare e f).then (compare m n) =
      compare ((e + 1074).toNat * 2 ^ 53 + m) ((f + 1074).toNat * 2 ^ 53 + n) := by
  have hm := h.lt
  have hn := h'.lt
  have he := h.le
  have hf := h'.le
  rcases Int.lt_trichotomy e f with hlt | rfl | hlt
  · rw [Int.compare_eq_lt.mpr hlt]
    exact (Nat.compare_eq_lt.mpr (by omega)).symm
  · rw [Int.compare_eq_eq.mpr rfl]
    rcases Nat.lt_trichotomy m n with hlt | rfl | hlt
    · exact (Nat.compare_eq_lt.mpr hlt).trans (Nat.compare_eq_lt.mpr (by omega)).symm
    · exact (Nat.compare_eq_eq.mpr rfl).trans (Nat.compare_eq_eq.mpr rfl).symm
    · exact (Nat.compare_eq_gt.mpr hlt).trans (Nat.compare_eq_gt.mpr (by omega)).symm
  · rw [Int.compare_eq_gt.mpr hlt]
    exact (Nat.compare_eq_gt.mpr (by omega)).symm

inductive Nonnegative : UnpackedFloat → Prop
  | zero (s : Sign) : Nonnegative (.zero s)
  | finite {m : Nat} {e : Int} {hm : 0 < m} : Nonnegative (.finite .positive m e hm)
  | infinity : Nonnegative (.infinity .positive)

theorem Nonnegative.of_compare {u v : UnpackedFloat} (hu : Nonnegative u)
    (h : (u.compare v).any (·.isLE) = true) : Nonnegative v := by
  cases v with
  | notANumber => cases hu <;> cases h
  | zero s => exact .zero s
  | infinity s =>
      cases s with
      | positive => exact .infinity
      | negative => cases hu <;> cases h
  | finite s m e hm =>
      cases s with
      | positive => exact .finite
      | negative => cases hu <;> cases h

theorem nonneg_iff {x : Float} : 0 ≤ x ↔ Nonnegative x.toModel.unpack := by
  rw [le_iff_compare, unpack_zero]
  refine ⟨(Nonnegative.zero _).of_compare, fun h => ?_⟩
  generalize x.toModel.unpack = u at h
  cases h <;> rfl

theorem zero_nonneg : (0 : Float) ≤ 0 :=
  nonneg_iff.mpr (unpack_zero ▸ .zero _)

theorem nonneg_of_le {x y : Float} (hx : 0 ≤ x) (h : x ≤ y) : 0 ≤ y := by
  rw [nonneg_iff] at hx ⊢
  exact hx.of_compare (le_iff_compare.mp h)

theorem nonneg_of_lt {x y : Float} (hx : 0 ≤ x) (h : x < y) : 0 ≤ y := by
  rw [nonneg_iff] at hx ⊢
  rw [lt_iff_compare] at h
  exact hx.of_compare (by rw [h]; rfl)

theorem nonneg_of_pos {x : Float} (h : 0 < x) : 0 ≤ x :=
  nonneg_of_lt zero_nonneg h

/-- Numbers that are not negative compare as their ranks. -/
theorem compare_eq {x y : Float} (hx : 0 ≤ x) (hy : 0 ≤ y) :
    x.toModel.unpack.compare y.toModel.unpack = some (compare (rank x) (rank y)) := by
  rw [nonneg_iff] at hx hy
  rw [rank, rank]
  generalize hu : x.toModel.unpack = u at hx
  generalize hv : y.toModel.unpack = v at hy
  cases hx with
  | zero s =>
      cases hy with
      | zero s => rfl
      | @finite n f hn =>
          have hlt : 0 < (f + 1074).toNat * 2 ^ 53 + n := by omega
          exact congrArg some (Nat.compare_eq_lt.mpr hlt).symm
      | infinity => rfl
  | @finite m e hm =>
      obtain ⟨hproper, he⟩ := proper_of_unpack hu
      have hpos : 0 < (e + 1074).toNat * 2 ^ 53 + m := by omega
      cases hy with
      | zero s => exact congrArg some (Nat.compare_eq_gt.mpr hpos).symm
      | @finite n f hn => exact congrArg some (compare_proper hproper (proper_of_unpack hv).1)
      | infinity => exact congrArg some (Nat.compare_eq_lt.mpr (hproper.rank_lt he)).symm
  | infinity =>
      cases hy with
      | zero s => rfl
      | @finite n f hn =>
          obtain ⟨hproper, hf⟩ := proper_of_unpack hv
          exact congrArg some (Nat.compare_eq_gt.mpr (hproper.rank_lt hf)).symm
      | infinity => rfl

theorem le_iff_rank {x y : Float} (hx : 0 ≤ x) (hy : 0 ≤ y) : x ≤ y ↔ rank x ≤ rank y := by
  rw [le_iff_compare, compare_eq hx hy]
  exact Nat.isLE_compare

theorem lt_iff_rank {x y : Float} (hx : 0 ≤ x) (hy : 0 ≤ y) : x < y ↔ rank x < rank y := by
  rw [lt_iff_compare, compare_eq hx hy, Option.some_inj, Nat.compare_eq_lt]

theorem le_trans_of_nonneg {x y z : Float} (hx : 0 ≤ x) (hxy : x ≤ y) (hyz : y ≤ z) : x ≤ z := by
  have hy := nonneg_of_le hx hxy
  have hz := nonneg_of_le hy hyz
  rw [le_iff_rank hx hy] at hxy
  rw [le_iff_rank hy hz] at hyz
  exact (le_iff_rank hx hz).mpr (hxy.trans hyz)

theorem rank_pos {x : Float} (h : 0 < x) : 0 < rank x :=
  (Nat.zero_le _).trans_lt ((lt_iff_rank zero_nonneg (nonneg_of_pos h)).mp h)

end ProseScore.Binary64
