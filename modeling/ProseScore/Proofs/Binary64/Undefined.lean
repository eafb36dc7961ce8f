import ProseScore.Proofs.Binary64.Rank

/-!
# Undefined binary64 numbers

Rounding never makes a number undefined, and packing keeps the sign of a number.  So a
result is undefined only if an argument is, or if infinities and zeros meet in a way
that leaves it open.  Numbers that are not undefined are in order.
-/

namespace ProseScore.Binary64

open Float.Model (Format UnpackedFloat)
open Float.Model.UnpackedFloat

/-! ## Signs -/

/-- The sign of a number that is not undefined. -/
def sign? : UnpackedFloat → Option Sign
  | .notANumber => none
  | .infinity s => some s
  | .zero s => some s
  | .finite s _ _ _ => some s

theorem sign?_unpack_packComponents {s : Sign} {exponent : BitVec 11} (mantissa : BitVec 52)
    (h : exponent ≠ -1#11) :
    sign? (UnpackedFloat.unpack .binary64 (packComponents .binary64 s exponent mantissa)) =
      some s := by
  rw [UnpackedFloat.unpack]
  simp only [unpackMantissa_packComponents, unpackExponent_packComponents,
    unpackSign_packComponents, Sign.ofBitVec_toBitVec, if_neg h]
  split
  · split <;> rfl
  · rfl

theorem sign?_unpack_pack (u : UnpackedFloat) : sign? (Float.Model.pack u).unpack = sign? u := by
  show sign? (UnpackedFloat.unpack .binary64 (UnpackedFloat.pack .binary64 u)) = _
  cases u with
  | notANumber => rfl
  | infinity s => cases s <;> rfl
  | zero s => cases s <;> rfl
  | finite s m e hm =>
      rw [UnpackedFloat.pack]
      dsimp only
      split
      · cases s <;> rfl
      · rename_i hsmall
        split
        · apply sign?_unpack_packComponents
          intro heq
          have hbiased := congrArg BitVec.toNat heq
          have htop : (-1#11).toNat = 2047 := rfl
          rw [BitVec.toNat_ofNat, htop] at hbiased
          omega
        · exact sign?_unpack_packComponents _ (by decide)

theorem sign?_eq_none_iff {u : UnpackedFloat} : sign? u = none ↔ u = .notANumber := by
  cases u <;> simp [sign?]

theorem eq_nan_iff {x : Float} : x = .nan ↔ x.toModel.unpack = .notANumber := by
  have hdecide : x.isNaN = true ↔ x = .nan := by
    rw [Float.isNaN_eq_decide_eq_nan, decide_eq_true_iff]
  exact hdecide.symm.trans UnpackedFloat.isNaN_iff

theorem isInf_iff {x : Float} : x.isInf = true ↔ ∃ s, x.toModel.unpack = .infinity s := by
  show x.toModel.unpack.isInf = true ↔ _
  cases x.toModel.unpack <;> simp [UnpackedFloat.isInf]

def IsZero (x : Float) : Prop :=
  ∃ s, x.toModel.unpack = .zero s

theorem unpack_inj {x y : Float} : x.toModel.unpack = y.toModel.unpack ↔ x = y :=
  ⟨eq_of_unpack_eq, fun h => h ▸ rfl⟩

theorem pack_eq_nan_iff {u : UnpackedFloat} :
    Float.ofModel (.pack u) = .nan ↔ u = .notANumber := by
  rw [eq_nan_iff, ← sign?_eq_none_iff, ← sign?_eq_none_iff]
  exact Eq.congr_left (sign?_unpack_pack u)

/-! ## Rounding -/

theorem sign?_roundWithAccuracy (s : Sign) (m : Nat) (e : Int) (accuracy : Accuracy) :
    sign? (roundWithAccuracy .binary64 s m e accuracy) = some s := by
  rw [roundWithAccuracy]
  dsimp only
  split <;> rfl

@[simp]
theorem roundWithAccuracy_ne_notANumber (s : Sign) (m : Nat) (e : Int) (accuracy : Accuracy) :
    roundWithAccuracy .binary64 s m e accuracy ≠ .notANumber := by
  rw [ne_eq, ← sign?_eq_none_iff, sign?_roundWithAccuracy]
  exact Option.some_ne_none s

@[simp]
theorem normalize_ne_notANumber (m e : Int) (s : Sign) :
    UnpackedFloat.normalize .binary64 m e s ≠ .notANumber := by
  rw [UnpackedFloat.normalize]
  split
  · exact roundWithAccuracy_ne_notANumber _ _ _ _
  · nofun
  · exact roundWithAccuracy_ne_notANumber _ _ _ _

/-! ## Results -/

theorem eq_neg_iff {s t : Sign} : s = -t ↔ s ≠ t := by
  cases s <;> cases t
  · exact iff_of_false nofun fun h => h rfl
  · exact iff_of_true rfl nofun
  · exact iff_of_true rfl nofun
  · exact iff_of_false nofun fun h => h rfl

theorem add_eq_nan_iff {x y : Float} : x + y = .nan ↔
    x = .nan ∨ y = .nan ∨ x.isInf = true ∧ y.isInf = true ∧ x ≠ y := by
  rw [show x + y = .ofModel (.pack (.add _ _ _)) from rfl, pack_eq_nan_iff]
  rw [eq_nan_iff, eq_nan_iff, isInf_iff, isInf_iff, ne_eq, ← unpack_inj]
  generalize x.toModel.unpack = u
  generalize y.toModel.unpack = v
  cases u <;> cases v <;> simp [UnpackedFloat.add]
  case zero.zero s t => cases s <;> cases t <;> nofun

theorem sub_eq_nan_iff {x y : Float} : x - y = .nan ↔
    x = .nan ∨ y = .nan ∨ x.isInf = true ∧ x = y := by
  rw [show x - y = .ofModel (.pack (.sub _ _ _)) from rfl, pack_eq_nan_iff]
  rw [eq_nan_iff, eq_nan_iff, isInf_iff, ← unpack_inj]
  generalize x.toModel.unpack = u
  generalize y.toModel.unpack = v
  cases u <;> cases v <;> simp [UnpackedFloat.sub, eq_neg_iff]
  case zero.zero s t => cases s <;> cases t <;> nofun

theorem mul_eq_nan_iff {x y : Float} : x * y = .nan ↔
    x = .nan ∨ y = .nan ∨ x.isInf = true ∧ IsZero y ∨ IsZero x ∧ y.isInf = true := by
  rw [show x * y = .ofModel (.pack (.mul _ _ _)) from rfl, pack_eq_nan_iff]
  rw [eq_nan_iff, eq_nan_iff, isInf_iff, isInf_iff, IsZero, IsZero]
  generalize x.toModel.unpack = u
  generalize y.toModel.unpack = v
  cases u <;> cases v <;> simp [UnpackedFloat.mul]

theorem div_eq_nan_iff {x y : Float} : x / y = .nan ↔
    x = .nan ∨ y = .nan ∨ x.isInf = true ∧ y.isInf = true ∨ IsZero x ∧ IsZero y := by
  rw [show x / y = .ofModel (.pack (.div _ _ _)) from rfl, pack_eq_nan_iff]
  rw [eq_nan_iff, eq_nan_iff, isInf_iff, isInf_iff, IsZero, IsZero]
  generalize x.toModel.unpack = u
  generalize y.toModel.unpack = v
  cases u <;> cases v <;> simp [UnpackedFloat.div]

/-- To scale a number keeps its sign. -/
theorem sign?_mul {x y : Float} {s : Sign} {m : Nat} {e : Int} {hm : 0 < m}
    (hx : sign? x.toModel.unpack = some s) (hy : y.toModel.unpack = .finite .positive m e hm) :
    sign? (x * y).toModel.unpack = some s := by
  refine (sign?_unpack_pack (.mul .binary64 x.toModel.unpack y.toModel.unpack)).trans ?_
  rw [hy]
  generalize x.toModel.unpack = u at hx
  have hsign : s * .positive = s := by cases s <;> rfl
  cases u with
  | notANumber => cases hx
  | infinity t =>
      obtain rfl := Option.some_inj.mp hx
      exact congrArg some hsign
  | zero t =>
      obtain rfl := Option.some_inj.mp hx
      exact congrArg some hsign
  | finite t n f hn =>
      obtain rfl := Option.some_inj.mp hx
      exact (sign?_roundWithAccuracy _ _ _ _).trans (congrArg some hsign)

theorem sign?_div {x y : Float} {s : Sign} {m : Nat} {e : Int} {hm : 0 < m}
    (hx : sign? x.toModel.unpack = some s) (hy : y.toModel.unpack = .finite .positive m e hm) :
    sign? (x / y).toModel.unpack = some s := by
  refine (sign?_unpack_pack (.div .binary64 x.toModel.unpack y.toModel.unpack)).trans ?_
  rw [hy]
  generalize x.toModel.unpack = u at hx
  have hsign : s / .positive = s := by cases s <;> rfl
  cases u with
  | notANumber => cases hx
  | infinity t =>
      obtain rfl := Option.some_inj.mp hx
      exact congrArg some hsign
  | zero t =>
      obtain rfl := Option.some_inj.mp hx
      exact congrArg some hsign
  | finite t n f hn =>
      obtain rfl := Option.some_inj.mp hx
      exact (sign?_roundWithAccuracy _ _ _ _).trans (congrArg some hsign)

/-! ## Order -/

theorem nonneg_of_sign? {x : Float} (h : sign? x.toModel.unpack = some .positive) : 0 ≤ x := by
  rw [nonneg_iff]
  generalize x.toModel.unpack = u at h
  cases u with
  | notANumber => cases h
  | infinity s => cases h; exact .infinity
  | zero s => exact .zero s
  | finite s m e hm => cases h; exact .finite

theorem sign?_of_pos {x : Float} (h : 0 < x) : sign? x.toModel.unpack = some .positive := by
  have hnonneg := nonneg_iff.mp (nonneg_of_pos h)
  rw [lt_iff_compare, unpack_zero] at h
  generalize x.toModel.unpack = u at h hnonneg
  cases hnonneg with
  | zero s => cases h
  | finite => rfl
  | infinity => rfl

theorem exists_compare {u v : UnpackedFloat} (hu : u ≠ .notANumber) (hv : v ≠ .notANumber) :
    ∃ o, u.compare v = some o := by
  rcases u with (_ | _) | _ | _ | ⟨_ | _, _, _, _⟩ <;>
    rcases v with (_ | _) | _ | _ | ⟨_ | _, _, _, _⟩ <;>
    first | exact ⟨_, rfl⟩ | exact absurd rfl hu | exact absurd rfl hv

theorem compare_swap (u v : UnpackedFloat) : (u.compare v).map Ordering.swap = v.compare u := by
  have hfinite (m n : Nat) (e f : Int) :
      ((compare e f).then (compare m n)).swap = (compare f e).then (compare n m) := by
    rw [Ordering.swap_then, Int.compare_swap, Nat.compare_swap]
  rcases u with (_ | _) | _ | _ | ⟨_ | _, m, e, _⟩ <;>
    rcases v with (_ | _) | _ | _ | ⟨_ | _, n, f, _⟩ <;>
    first | rfl | simp only [UnpackedFloat.compare, Option.map_some, hfinite]

theorem compare_eq_iff {u v : UnpackedFloat} : u.compare v = some .eq ↔
    u = v ∧ u ≠ .notANumber ∨ (∃ s, u = .zero s) ∧ ∃ s, v = .zero s := by
  have hfinite (m n : Nat) (e f : Int) :
      (compare e f).then (compare m n) = .eq ↔ m = n ∧ e = f := by
    rw [Ordering.then_eq_eq, Int.compare_eq_eq, Nat.compare_eq_eq, and_comm]
  have hinfinite (s : Sign) : compare s s = .eq := by cases s <;> rfl
  rcases u with (_ | _) | _ | _ | ⟨_ | _, m, e, _⟩ <;>
    rcases v with (_ | _) | _ | _ | ⟨_ | _, n, f, _⟩ <;>
    simp [UnpackedFloat.compare, hfinite, hinfinite]

theorem ne_nan_of_le {x y : Float} (h : x ≤ y) : x ≠ .nan ∧ y ≠ .nan := by
  rw [ne_eq, ne_eq, eq_nan_iff, eq_nan_iff]
  rw [le_iff_compare] at h
  constructor <;> intro heq <;> rw [heq] at h
  · cases h
  · rw [← compare_swap] at h
    cases h

theorem ne_nan_of_lt {x y : Float} (h : x < y) : x ≠ .nan ∧ y ≠ .nan := by
  apply ne_nan_of_le
  rw [lt_iff_compare] at h
  rw [le_iff_compare, h]
  rfl

theorem le_of_not_lt {x y : Float} (hx : x ≠ .nan) (hy : y ≠ .nan) (h : ¬ x < y) : y ≤ x := by
  rw [ne_eq, eq_nan_iff] at hx hy
  obtain ⟨o, ho⟩ := exists_compare hx hy
  rw [lt_iff_compare, ho] at h
  rw [le_iff_compare, ← compare_swap, ho]
  cases o with
  | lt => exact absurd rfl h
  | eq => rfl
  | gt => rfl

theorem not_lt_of_le {x y : Float} (h : x ≤ y) : ¬ y < x := by
  rw [le_iff_compare, ← compare_swap] at h
  rw [lt_iff_compare]
  intro hlt
  rw [hlt] at h
  cases h

theorem le_and_ge_iff {x y : Float} :
    x ≤ y ∧ y ≤ x ↔ x = y ∧ x ≠ .nan ∨ IsZero x ∧ IsZero y := by
  have hcompare : x ≤ y ∧ y ≤ x ↔ x.toModel.unpack.compare y.toModel.unpack = some .eq := by
    rw [le_iff_compare, le_iff_compare, ← compare_swap x.toModel.unpack]
    cases x.toModel.unpack.compare y.toModel.unpack with
    | none => simp
    | some o => cases o <;> simp
  rw [hcompare, compare_eq_iff, unpack_inj, ne_eq, ← eq_nan_iff]
  rfl

theorem le_self {x : Float} (h : x ≠ .nan) : x ≤ x :=
  (le_and_ge_iff.mpr (.inl ⟨rfl, h⟩)).1

theorem not_isInf_of_le {x y : Float} (hx : 0 ≤ x) (h : x ≤ y) (hy : ¬ y.isInf) :
    ¬ x.isInf := by
  rw [isInf_iff] at hy ⊢
  rintro ⟨s, hs⟩
  rw [nonneg_iff, hs] at hx
  rw [le_iff_compare, hs] at h
  generalize y.toModel.unpack = v at h hy
  cases hx with
  | infinity =>
      cases v with
      | infinity t => exact hy ⟨t, rfl⟩
      | _ => cases h

theorem not_isInf_of_le_one {x : Float} (hx : 0 ≤ x) (h : x ≤ 1.0) : ¬ x.isInf :=
  not_isInf_of_le hx h (by decide +kernel)

theorem le_of_isInf {x y : Float} (hx : x ≠ .nan) (hy : 0 ≤ y) (hinf : y.isInf) :
    x ≤ y := by
  apply le_of_not_lt (ne_nan_of_le hy).2 hx
  rw [lt_iff_compare]
  rw [isInf_iff] at hinf
  obtain ⟨s, hs⟩ := hinf
  rw [nonneg_iff, hs] at hy
  rw [hs]
  generalize x.toModel.unpack = u
  cases hy with
  | infinity => rcases u with (_ | _) | _ | _ | ⟨_ | _, _, _, _⟩ <;> nofun

end ProseScore.Binary64
