import Darkroom.Number.Decimal
import Darkroom.Proofs.Number.Nearest

/-!
# Very small and very large doubles

A double without a sign is very small, very large or stands for a number in between.  A product or a
quotient by a word is again what it was, only less so, whether or not it is rounded to zero, to a
double of fewer digits or to infinity.  What a text writes without a sign is such a double.
-/

namespace Darkroom
namespace Binary

open Float.Model (Format UnpackedFloat totalExponent)
open Float.Model.UnpackedFloat hiding round normalize

/-! ## Doubles without a sign -/

/-- A number without a minus sign, infinity among them. -/
inductive Unsigned : UnpackedFloat → Prop where
  /-- A finite number. -/
  | magnitude
      {u : UnpackedFloat}
      (isMagnitude : IsMagnitude u) :
      Unsigned u
  /-- Infinity. -/
  | infinity : Unsigned (.infinity .positive)

/-- A double without a minus sign. -/
def IsUnsigned (x : Float) : Prop :=
  Unsigned x.toModel.unpack

theorem isMagnitude_unpack_packComponents
    {field : BitVec 11}
    (notLast : field ≠ -1#11)
    (fraction : BitVec 52) :
    IsMagnitude (unpack Format.binary64
      (packComponents Format.binary64 .positive field fraction)) := by
  simp only [unpack, unpackMantissa_packComponents, unpackExponent_packComponents,
    unpackSign_packComponents, Sign.ofBitVec_toBitVec]
  rw [if_neg notLast]
  split
  · split
    · exact .zero
    · exact .finite _
  · exact .finite _

/-- A number that is packed keeps its sign. -/
theorem Unsigned.pack
    {u : UnpackedFloat}
    (unsigned : Unsigned u) :
    IsUnsigned ⟨Float.Model.pack u⟩ := by
  change Unsigned (unpack Format.binary64 (UnpackedFloat.pack Format.binary64 u))
  cases unsigned with
  | infinity => exact .infinity
  | magnitude isMagnitude =>
      cases isMagnitude with
      | zero => exact .magnitude .zero
      | @finite mantissa exponent pos =>
          simp only [UnpackedFloat.pack]
          split
          · rw [unpack_packedInfinity]
            exact .infinity
          · next fits =>
            refine .magnitude ?_
            split
            · refine isMagnitude_unpack_packComponents (fun last => ?_) _
              rw [← BitVec.toNat_inj, BitVec.toNat_ofNat] at last
              change _ = 2047 at last
              change ¬ 2048 ≤ _ at fits
              omega
            · exact isMagnitude_unpack_packComponents (by decide) _

theorem isMagnitude_roundWithAccuracy
    (mantissa : Nat)
    (exponent : Int)
    (accuracy : Accuracy) :
    IsMagnitude (roundWithAccuracy Format.binary64 .positive mantissa exponent accuracy) := by
  rw [roundWithAccuracy]
  dsimp only
  split
  · exact .zero
  · exact .finite _

variable {mantissa : Nat} {exponent place : Int}

/-! ## Operations with words -/

/-- A double that is very small. -/
def IsTiny (place : Int) (x : Float) : Prop :=
  Tiny place x.toModel.unpack

/-- A double that is very large. -/
def IsHuge (place : Int) (x : Float) : Prop :=
  Huge place x.toModel.unpack

section Words

variable {x : Float} {n : Nat} (n_pos : 0 < n) (n_less : n < 2 ^ 32)

include n_pos n_less

theorem IsTiny.ofNat_mul
    (isTiny : IsTiny place x)
    (least : -1000 ≤ place)
    (most : place ≤ 800) :
    IsTiny (place + 40) (Float.ofNat n * x) := by
  have isNormal := isNormal_of_lt n_pos (show n < 2 ^ 53 by omega)
  have digits : n.log2 ≤ 31 := log2_le_of_lt n_less
  rw [ofNat_eq_double n_pos (by omega)]
  change Tiny _ (unpack Format.binary64 (pack Format.binary64 (mul Format.binary64
    (isNormal.double .positive).toModel.unpack x.toModel.unpack)))
  rw [isNormal.unpack_double]
  have word : Tiny (-21) (.finite .positive _ (n.log2 - 52) isNormal.pos) :=
    .finite isNormal.pos isNormal.upper (by omega)
  refine Tiny.unpack_pack ?_ (by omega) (by omega)
  exact word.mul isTiny (by omega) (by omega)

theorem IsTiny.div_ofNat
    (isTiny : IsTiny place x)
    (least : -1000 ≤ place)
    (most : place ≤ 800) :
    IsTiny (place + 40) (x / Float.ofNat n) := by
  have isNormal := isNormal_of_lt n_pos (show n < 2 ^ 53 by omega)
  have digits : (n * 2 ^ (52 - n.log2)).log2 = 52 := by simpa using isNormal.log2_scaled 0
  rw [ofNat_eq_double n_pos (by omega)]
  change Tiny _ (unpack Format.binary64 (pack Format.binary64 (div Format.binary64
    x.toModel.unpack (isNormal.double .positive).toModel.unpack)))
  rw [isNormal.unpack_double]
  refine Tiny.unpack_pack ?_ (by omega) (by omega)
  unfold IsTiny at isTiny
  generalize x.toModel.unpack = u at isTiny
  cases isTiny with
  | zero => exact .zero
  | @finite m p pos few low =>
      obtain ⟨shift, amount, core⟩ :=
        exists_divCore m (n * 2 ^ (52 - n.log2)) p (n.log2 - 52)
      have few' := log2_le_of_lt few
      have quotient : (m * 2 ^ shift / (n * 2 ^ (52 - n.log2))).log2 ≤ shift := by
        refine log2_le_of_lt ((Nat.div_lt_iff_lt_mul isNormal.pos).mpr ?_)
        calc m * 2 ^ shift < 2 ^ 53 * 2 ^ shift :=
              Nat.mul_lt_mul_of_pos_right few (Nat.two_pow_pos shift)
          _ = 2 ^ (shift + 1) * 2 ^ 52 := by rw [← Nat.pow_add, ← Nat.pow_add]; congr 1; omega
          _ ≤ 2 ^ (shift + 1) * (n * 2 ^ (52 - n.log2)) := Nat.mul_le_mul_left _ isNormal.lower
      simp only [div, core]
      exact tiny_roundWithAccuracy (by omega) (by omega) (by omega) _

theorem IsHuge.ofNat_mul
    (isHuge : IsHuge place x)
    (least : -1000 ≤ place) :
    IsHuge (place - 40) (Float.ofNat n * x) := by
  have isNormal := isNormal_of_lt n_pos (show n < 2 ^ 53 by omega)
  rw [ofNat_eq_double n_pos (by omega)]
  change Huge _ (unpack Format.binary64 (pack Format.binary64 (mul Format.binary64
    (isNormal.double .positive).toModel.unpack x.toModel.unpack)))
  rw [isNormal.unpack_double]
  refine Huge.unpack_pack ?_ (by omega)
  unfold IsHuge at isHuge
  generalize x.toModel.unpack = u at isHuge
  cases isHuge with
  | infinity => exact .infinity
  | @finite m p pos many few high =>
      rw [mul_finite_positive]
      have product : 2 ^ 104 ≤ n * 2 ^ (52 - n.log2) * m :=
        calc 2 ^ 104 = 2 ^ 52 * 2 ^ 52 := by rw [← Nat.pow_add]
          _ ≤ n * 2 ^ (52 - n.log2) * m := Nat.mul_le_mul isNormal.lower many
      have digits : 104 ≤ (n * 2 ^ (52 - n.log2) * m).log2 :=
        (Nat.le_log2 (by omega)).mpr product
      exact huge_roundWithAccuracy (by omega) (by omega) (by omega) .exact

theorem IsHuge.div_ofNat
    (isHuge : IsHuge place x)
    (least : -1000 ≤ place) :
    IsHuge (place - 40) (x / Float.ofNat n) := by
  have isNormal := isNormal_of_lt n_pos (show n < 2 ^ 53 by omega)
  have digits : (n * 2 ^ (52 - n.log2)).log2 = 52 := by simpa using isNormal.log2_scaled 0
  have few' : n.log2 ≤ 31 := log2_le_of_lt n_less
  rw [ofNat_eq_double n_pos (by omega)]
  change Huge _ (unpack Format.binary64 (pack Format.binary64 (div Format.binary64
    x.toModel.unpack (isNormal.double .positive).toModel.unpack)))
  rw [isNormal.unpack_double]
  refine Huge.unpack_pack ?_ (by omega)
  unfold IsHuge at isHuge
  generalize x.toModel.unpack = u at isHuge
  cases isHuge with
  | infinity => exact .infinity
  | @finite m p pos many few high =>
      obtain ⟨shift, amount, core⟩ :=
        exists_divCore m (n * 2 ^ (52 - n.log2)) p (n.log2 - 52)
      have digits' : m.log2 = 52 := (Nat.log2_eq_iff (by omega)).mpr ⟨many, few⟩
      obtain rfl : shift = 53 := by omega
      have quotient : 2 ^ 52 ≤ m * 2 ^ 53 / (n * 2 ^ (52 - n.log2)) := by
        rw [Nat.le_div_iff_mul_le isNormal.pos]
        exact Nat.mul_le_mul many isNormal.upper.le
      have enough := (Nat.le_log2 (by omega)).mpr quotient
      simp only [div, core]
      exact huge_roundWithAccuracy (by omega) quotient (by omega) _

/-! ## Order and words -/

theorem IsTiny.lt_ofNat
    (isTiny : IsTiny place x)
    (low : place ≤ -60) :
    x < Float.ofNat n := by
  have isNormal := isNormal_of_lt n_pos (show n < 2 ^ 53 by omega)
  rw [lt_iff_compare, ofNat_eq_double n_pos (by omega), isNormal.unpack_double]
  unfold IsTiny at isTiny
  generalize x.toModel.unpack = u at isTiny
  cases isTiny with
  | zero => rfl
  | @finite m p pos few low' =>
      have less : compare p (n.log2 - 52) = .lt := Int.compare_eq_lt.mpr (by omega)
      simp only [UnpackedFloat.compare, less, Ordering.then]

theorem IsHuge.ofNat_lt
    (isHuge : IsHuge place x)
    (high : 0 ≤ place) :
    Float.ofNat n < x := by
  have isNormal := isNormal_of_lt n_pos (show n < 2 ^ 53 by omega)
  have digits : n.log2 ≤ 31 := log2_le_of_lt n_less
  rw [lt_iff_compare, ofNat_eq_double n_pos (by omega), isNormal.unpack_double]
  unfold IsHuge at isHuge
  generalize x.toModel.unpack = u at isHuge
  cases isHuge with
  | infinity => rfl
  | @finite m p pos many few high' =>
      have less : compare ((n.log2 : Int) - 52) p = .lt := Int.compare_eq_lt.mpr (by omega)
      simp only [UnpackedFloat.compare, less, Ordering.then]

end Words

theorem nearestUInt32_of_isTiny
    {x : Float}
    (isTiny : IsTiny place x)
    (low : place ≤ -60) :
    nearestUInt32 x = 0 := by
  have nothing {m : Nat} {p : Int} (few : m < 2 ^ 53) (low' : p ≤ -60) : nearestWhole m p = 0 := by
    have power : (2 : Nat) ^ 60 ≤ 2 ^ (-p).toNat := Nat.pow_le_pow_right two_pos (by omega)
    rw [nearestWhole, if_neg (show ¬ 0 ≤ p by omega), Nat.div_eq_zero_iff, Nat.pow_succ]
    omega
  have decoded := ofFloat_eq_ofUnpacked x
  unfold IsTiny at isTiny
  generalize x.toModel.unpack = u at isTiny decoded
  cases isTiny with
  | zero => rw [nearestUInt32_of_finite decoded, nothing (by decide) (by decide)]; rfl
  | @finite m p pos few low' =>
      rw [nearestUInt32_of_finite decoded, nothing few (by omega)]
      rfl

theorem nearestUInt32_of_isHuge
    {x : Float}
    (isHuge : IsHuge place x)
    (high : 0 ≤ place) :
    nearestUInt32 x = UInt32.ofNat (2 ^ 32 - 1) := by
  have decoded := ofFloat_eq_ofUnpacked x
  unfold IsHuge at isHuge
  generalize x.toModel.unpack = u at isHuge decoded
  cases isHuge with
  | infinity =>
      rw [nearestUInt32, decoded]
      rfl
  | @finite m p pos many few high' =>
      have whole : 2 ^ 52 ≤ nearestWhole m p := by
        rw [nearestWhole, if_pos (show 0 ≤ p by omega)]
        exact many.trans (Nat.le_mul_of_pos_right m (Nat.two_pow_pos _))
      rw [nearestUInt32_of_finite decoded, min_eq_right (by omega)]

theorem exists_compare
    {u v : UnpackedFloat}
    (number : u.isNaN = false)
    (number' : v.isNaN = false) :
    ∃ o, u.compare v = some o := by
  cases u with
  | notANumber => cases number
  | infinity sign | zero sign | finite sign =>
      cases v with
      | notANumber => cases number'
      | infinity other | zero other | finite other =>
          cases sign <;> cases other <;> exact ⟨_, rfl⟩

/-- Numbers are in order. -/
theorem le_iff_not_lt
    {x y : Float}
    (number : x.isNaN = false)
    (number' : y.isNaN = false) :
    x ≤ y ↔ ¬ y < x := by
  rw [le_iff_le, lt_iff_compare, compare_swap, UnpackedFloat.le]
  obtain ⟨o, same⟩ := exists_compare number number'
  rw [same]
  cases o <;> decide

/-- What is not negative is a number. -/
theorem isNaN_eq_false_of_nonneg
    {x : Float}
    (nonneg : 0.0 ≤ x) :
    x.isNaN = false := by
  rw [le_iff_le, unpack_zero] at nonneg
  change x.toModel.unpack.isNaN = false
  generalize x.toModel.unpack = u at nonneg
  cases u with
  | notANumber => cases nonneg
  | _ => rfl

theorem IsUnsigned.isNaN_eq_false
    {x : Float}
    (unsigned : IsUnsigned x) :
    x.isNaN = false := by
  change x.toModel.unpack.isNaN = false
  unfold IsUnsigned at unsigned
  generalize x.toModel.unpack = u at unsigned
  rcases unsigned with ⟨_ | _⟩ | _ <;> rfl

/-- Numbers without a sign are in order. -/
theorem IsUnsigned.le_iff
    {x y : Float}
    (unsigned : IsUnsigned x)
    (unsigned' : IsUnsigned y) :
    x ≤ y ↔ ¬ y < x :=
  le_iff_not_lt unsigned.isNaN_eq_false unsigned'.isNaN_eq_false

/-! ## Doubles and whole numbers in order -/

/-- What a double stands for is less than a number. -/
inductive IsLess (v : ℝ) : Binary → Prop where
  /-- It is the negative infinity. -/
  | infinite :
      IsLess v (.infinite true)
  /-- It is a number with its sign. -/
  | finite
      {negative : Bool}
      {mantissa : Nat}
      {exponent : Int}
      (less :
        (if negative then -((mantissa : ℝ) * 2 ^ exponent) else mantissa * 2 ^ exponent) < v) :
      IsLess v (.finite negative mantissa exponent)

section IsLess

variable {v : ℝ} {negative : Bool} {mantissa : Nat} {exponent : Int}

@[simp] theorem not_isLess_undefined :
    ¬ IsLess v .undefined :=
  nofun

@[simp] theorem isLess_infinite_iff :
    IsLess v (.infinite negative) ↔ negative = true := by
  constructor
  · rintro ⟨⟩
    rfl
  · rintro rfl
    exact .infinite

@[simp] theorem isLess_finite_iff :
    IsLess v (.finite negative mantissa exponent) ↔
      (if negative then -((mantissa : ℝ) * 2 ^ exponent) else mantissa * 2 ^ exponent) < v :=
  ⟨fun | .finite less => less, .finite⟩

end IsLess

theorem value_lt_of_exponent_lt
    {m n : Nat}
    {p q : Int}
    (few : m < 2 ^ 53)
    (many : 2 ^ 52 ≤ n)
    (less : p < q) :
    (m : ℝ) * 2 ^ p < n * 2 ^ q := by
  have upper : (m : ℝ) < 2 ^ (53 : Int) := by exact_mod_cast few
  have lower : (2 : ℝ) ^ (52 : Int) ≤ n := by exact_mod_cast many
  calc (m : ℝ) * 2 ^ p < 2 ^ (53 : Int) * 2 ^ p :=
        mul_lt_mul_of_pos_right upper (zpow_pos two_pos p)
    _ = 2 ^ (52 : Int) * 2 ^ (p + 1) := by
      rw [← zpow_add₀ two_ne_zero, ← zpow_add₀ two_ne_zero]
      congr 1
      omega
    _ ≤ n * 2 ^ q :=
      mul_le_mul lower (zpow_le_zpow_right₀ one_le_two less) (zpow_pos two_pos _).le
        (Nat.cast_nonneg n)

/-- A double, of fewer digits perhaps, and one of full precision are compared as numbers are. -/
theorem compare_eq_lt_iff
    {m n : Nat}
    {p q : Int}
    (few : m < 2 ^ 53)
    (many : 2 ^ 52 ≤ m ∨ p = -1074)
    (isNormal : IsNormal n q) :
    (compare p q).then (compare m n) = .lt ↔ (m : ℝ) * 2 ^ p < n * 2 ^ q := by
  rcases lt_trichotomy p q with low | rfl | high
  · rw [Int.compare_eq_lt.mpr low]
    exact iff_of_true rfl (value_lt_of_exponent_lt few isNormal.lower low)
  · rw [Int.compare_eq_eq.mpr rfl, Ordering.then, Nat.compare_eq_lt,
      mul_lt_mul_iff_left₀ (zpow_pos two_pos p), Nat.cast_lt]
  · have least := isNormal.least
    have many' : 2 ^ 52 ≤ m := many.resolve_right (by omega)
    rw [Int.compare_eq_gt.mpr high]
    exact iff_of_false nofun (value_lt_of_exponent_lt isNormal.upper many' high).not_gt

/-- A double is less than a whole number of at most 53 digits when what it stands for is. -/
theorem lt_ofNat_iff
    {n : Nat}
    (less : n < 2 ^ 53)
    (x : Float) :
    x < Float.ofNat n ↔ (ofFloat x).IsLess n := by
  have decoded := ofFloat_eq_ofUnpacked x
  rw [lt_iff_compare, decoded]
  rcases Nat.eq_zero_or_pos n with rfl | pos
  · have zero : (Float.ofNat 0).toModel.unpack = .zero .positive := by rfl
    rw [zero]
    cases x.toModel.unpack with
    | notANumber => simp [ofUnpacked, UnpackedFloat.compare]
    | infinity sign => cases sign <;> simp [ofUnpacked, isNegative, UnpackedFloat.compare]
    | zero sign => simp [ofUnpacked, UnpackedFloat.compare]
    | finite sign m p pos =>
        have positive : (0 : ℝ) < m * 2 ^ p := by positivity
        cases sign with
        | negative => simpa [ofUnpacked, isNegative, UnpackedFloat.compare] using positive
        | positive =>
            simpa [ofUnpacked, isNegative, UnpackedFloat.compare] using positive.le
  · have isNormal := isNormal_of_lt pos less
    have value := value_of_log2_le (log2_le_of_lt less)
    have some : (0 : ℝ) < n := Nat.cast_pos.mpr pos
    rw [ofNat_eq_double pos less, isNormal.unpack_double]
    cases unpacked : x.toModel.unpack with
    | notANumber => simp [ofUnpacked, UnpackedFloat.compare]
    | infinity sign => cases sign <;> simp [ofUnpacked, isNegative, UnpackedFloat.compare]
    | zero sign => simp [ofUnpacked, UnpackedFloat.compare, pos]
    | finite sign m p m_pos =>
        rw [unpacked] at decoded
        cases sign with
        | negative =>
            have negative : -((m : ℝ) * 2 ^ p) < n := (neg_neg_of_pos (by positivity)).trans some
            simpa [ofUnpacked, isNegative, UnpackedFloat.compare] using negative
        | positive =>
            have order := compare_eq_lt_iff (mantissa_lt_of_ofFloat decoded)
              (le_mantissa_of_ofFloat decoded) isNormal
            simp only [UnpackedFloat.compare, Option.some.injEq, order, value, ofUnpacked,
              isNegative, isLess_finite_iff, Bool.false_eq_true, if_false]

/-! ## Extents -/

/-- How large a number without a sign is: very small, not far from one, or very large. -/
inductive Extent where
  /-- Very small. -/
  | tiny
  /-- A number in between. -/
  | moderate (v : ℝ)
  /-- Very large. -/
  | huge

/-- The extent of a multiple. -/
noncomputable def Extent.scale
    (factor : ℝ) :
    Extent → Extent
  | .tiny => .tiny
  | .moderate v => .moderate (v * factor)
  | .huge => .huge

theorem Extent.scale_scale
    (extent : Extent)
    (r s : ℝ) :
    (extent.scale r).scale s = extent.scale (r * s) := by
  cases extent with
  | tiny => rfl
  | moderate v => exact congrArg Extent.moderate (mul_assoc v r s)
  | huge => rfl

theorem Extent.scale_one
    (extent : Extent) :
    extent.scale 1 = extent := by
  cases extent with
  | tiny => rfl
  | moderate v => exact congrArg Extent.moderate (mul_one v)
  | huge => rfl

theorem Extent.scale_inv_scale
    {factor : ℝ}
    (pos : 0 < factor)
    (extent : Extent) :
    (extent.scale factor⁻¹).scale factor = extent := by
  rw [scale_scale, inv_mul_cancel₀ pos.ne', scale_one]

theorem Extent.scale_comm
    (extent : Extent)
    (r s : ℝ) :
    (extent.scale r).scale s = (extent.scale s).scale r := by
  rw [scale_scale, scale_scale, mul_comm]

/-- A double without a sign has an extent after some operations, of which each takes one rounding
and not more than forty powers of two. -/
inductive HasExtent (operations : Nat) (x : Float) : Extent → Prop where
  /-- It is far below one. -/
  | tiny (isTiny : IsTiny (40 * operations - 160) x) : HasExtent operations x .tiny
  /-- It stands for a number. -/
  | moderate
      {v : ℝ}
      (about : IsAbout operations .positive x v)
      (inRange : InRange (160 + 40 * operations) v) :
      HasExtent operations x (.moderate v)
  /-- It is far above any word. -/
  | huge (isHuge : IsHuge (100 - 40 * operations) x) : HasExtent operations x .huge

/-- A number without a sign has an extent. -/
theorem IsUnsigned.exists_extent
    {x : Float}
    (unsigned : IsUnsigned x) :
    ∃ extent, HasExtent 0 x extent := by
  have decoded := ofFloat_eq_ofUnpacked x
  unfold IsUnsigned at unsigned
  generalize unpacked : x.toModel.unpack = u at unsigned decoded
  rcases unsigned with ⟨_ | @⟨m, p, pos⟩⟩ | _
  · exact ⟨.tiny, .tiny (by rw [IsTiny, unpacked]; exact .zero)⟩
  · have few := mantissa_lt_of_ofFloat decoded
    have many := le_mantissa_of_ofFloat decoded
    have inRange := exponent_mem_of_ofFloat decoded
    rcases le_or_gt p (-160) with low | notLow
    · exact ⟨.tiny, .tiny (by rw [IsTiny, unpacked]; exact .finite pos few (by omega))⟩
    have many := many.resolve_right (by omega)
    rcases le_or_gt 100 p with high | notHigh
    · exact ⟨.huge, .huge (by rw [IsHuge, unpacked]; exact .finite pos many few (by omega))⟩
    have isNormal : IsNormal m p := ⟨many, few, inRange.1, inRange.2⟩
    have value : (0 : ℝ) < m * 2 ^ p :=
      mul_pos (Nat.cast_pos.mpr pos) (zpow_pos two_pos p)
    refine ⟨.moderate (m * 2 ^ p), .moderate ?_ ⟨?_, ?_⟩⟩
    · rw [IsAbout, unpacked]
      exact .finite isNormal value (Near.refl _)
    · have some : (1 : ℝ) ≤ m := by exact_mod_cast pos
      calc (2 : ℝ) ^ (-(160 + 40 * 0 : Nat) : Int) ≤ 1 * 2 ^ p := by
            rw [one_mul]
            exact zpow_le_zpow_right₀ one_le_two (by omega)
        _ ≤ m * 2 ^ p := mul_le_mul_of_nonneg_right some (zpow_pos two_pos p).le
    · have most : (m : ℝ) ≤ 2 ^ (53 : Int) := by exact_mod_cast few.le
      calc (m : ℝ) * 2 ^ p ≤ 2 ^ (53 : Int) * 2 ^ p :=
            mul_le_mul_of_nonneg_right most (zpow_pos two_pos p).le
        _ = 2 ^ (53 + p) := (zpow_add₀ two_ne_zero _ _).symm
        _ ≤ 2 ^ ((160 + 40 * 0 : Nat) : Int) := zpow_le_zpow_right₀ one_le_two (by omega)
  · exact ⟨.huge, .huge (by rw [IsHuge, unpacked]; exact .infinity)⟩

theorem HasExtent.isUnsigned
    {operations : Nat}
    {x : Float}
    {extent : Extent}
    (hasExtent : HasExtent operations x extent) :
    IsUnsigned x := by
  unfold IsUnsigned
  cases hasExtent with
  | tiny isTiny =>
      unfold IsTiny at isTiny
      generalize x.toModel.unpack = u at isTiny
      cases isTiny with
      | zero => exact .magnitude .zero
      | finite pos => exact .magnitude (.finite pos)
  | moderate about =>
      unfold IsAbout at about
      generalize x.toModel.unpack = u at about
      cases about with
      | zero => exact .magnitude .zero
      | finite isNormal => exact .magnitude (.finite isNormal.pos)
  | huge isHuge =>
      unfold IsHuge at isHuge
      generalize x.toModel.unpack = u at isHuge
      cases isHuge with
      | infinity => exact .infinity
      | finite pos => exact .magnitude (.finite pos)

section Words

variable {operations n : Nat} {x : Float} {extent : Extent} (n_pos : 0 < n) (n_less : n < 2 ^ 32)
  (few : operations ≤ 4) (hasExtent : HasExtent operations x extent)

include n_pos n_less

theorem inRange_of_word :
    InRange 40 (n : ℝ) ∧ InRange 40 (n : ℝ)⁻¹ := by
  have least : (1 : ℝ) ≤ n := by exact_mod_cast n_pos
  have most : (n : ℝ) ≤ 2 ^ 32 := by exact_mod_cast n_less.le
  constructor
  · exact inRange_of_le 32 (by decide) (le_trans (by norm_num) least) most
  · refine inRange_of_le 32 (by decide) ?_ ((inv_le_one_of_one_le₀ least).trans (by norm_num))
    rw [one_div]
    exact inv_anti₀ (by linarith) most

include few hasExtent

/-- A word times a double. -/
theorem HasExtent.ofNat_mul :
    HasExtent (operations + 1) (Float.ofNat n * x) (extent.scale n) := by
  cases hasExtent with
  | tiny isTiny =>
      have scaled := isTiny.ofNat_mul n_pos n_less (by omega) (by omega)
      exact .tiny (by convert scaled using 1; omega)
  | @moderate v about inRange =>
      have wide := inRange.scale (inRange_of_word n_pos n_less).1
      refine .moderate ?_ wide
      have product := (isAbout_ofNat (show n < 2 ^ 53 by omega)).mul about (by omega) fun _ =>
        mul_comm v n ▸ wide.mono (by omega)
      rwa [Nat.zero_add, mul_comm] at product
  | huge isHuge =>
      have scaled := isHuge.ofNat_mul n_pos n_less (by omega)
      exact .huge (by convert scaled using 1; omega)

/-- A double divided by a word. -/
theorem HasExtent.div_ofNat :
    HasExtent (operations + 1) (x / Float.ofNat n) (extent.scale (n : ℝ)⁻¹) := by
  cases hasExtent with
  | tiny isTiny =>
      have scaled := isTiny.div_ofNat n_pos n_less (by omega) (by omega)
      exact .tiny (by convert scaled using 1; omega)
  | @moderate v about inRange =>
      have wide := inRange.scale (inRange_of_word n_pos n_less).2
      refine .moderate ?_ wide
      rw [← div_eq_mul_inv] at wide ⊢
      exact about.div_ofNat n_pos (by omega) (by omega) fun _ => wide.mono (by omega)
  | huge isHuge =>
      have scaled := isHuge.div_ofNat n_pos n_less (by omega)
      exact .huge (by convert scaled using 1; omega)

end Words

section Unsigned

variable {n : Nat} {x : Float} (n_pos : 0 < n) (n_less : n < 2 ^ 32) (unsigned : IsUnsigned x)

include n_pos n_less unsigned

theorem IsUnsigned.ofNat_mul :
    IsUnsigned (Float.ofNat n * x) := by
  obtain ⟨_, hasExtent⟩ := unsigned.exists_extent
  exact (hasExtent.ofNat_mul n_pos n_less (Nat.zero_le 4)).isUnsigned

theorem IsUnsigned.div_ofNat :
    IsUnsigned (x / Float.ofNat n) := by
  obtain ⟨_, hasExtent⟩ := unsigned.exists_extent
  exact (hasExtent.div_ofNat n_pos n_less (Nat.zero_le 4)).isUnsigned

end Unsigned

/-! ## Decimal numbers -/

theorem Unsigned.mul_finite
    {u : UnpackedFloat}
    (unsigned : Unsigned u)
    (pos : 0 < mantissa) :
    Unsigned (mul Format.binary64 u (.finite .positive mantissa exponent pos)) := by
  rcases unsigned with ⟨_ | pos'⟩ | _
  · exact .magnitude .zero
  · exact .magnitude (isMagnitude_roundWithAccuracy _ _ _)
  · exact .infinity

theorem Unsigned.div_finite
    {u : UnpackedFloat}
    (unsigned : Unsigned u)
    (pos : 0 < mantissa) :
    Unsigned (div Format.binary64 u (.finite .positive mantissa exponent pos)) := by
  rcases unsigned with ⟨_ | pos'⟩ | _
  · exact .magnitude .zero
  · exact .magnitude (isMagnitude_roundWithAccuracy _ _ _)
  · exact .infinity

theorem isUnsigned_toFloat
    (n : UInt64) :
    IsUnsigned n.toFloat := by
  change IsUnsigned ⟨Float.Model.pack (UnpackedFloat.normalize Format.binary64 n.toNat 0 .positive)⟩
  refine Unsigned.pack (.magnitude ?_)
  rw [UnpackedFloat.normalize]
  split
  · next negative => exact absurd (Int.compare_eq_lt.mp negative) (by omega)
  · exact .zero
  · exact isMagnitude_roundWithAccuracy _ _ _

/-- Whether a number is finite and above zero. -/
def isPositive : Binary → Bool
  | .finite negative mantissa _ => !negative && decide (0 < mantissa)
  | _ => false

theorem exists_unpack_of_isPositive
    {x : Float}
    (positive : (ofFloat x).isPositive = true) :
    ∃ mantissa exponent, ∃ pos : 0 < mantissa,
      x.toModel.unpack = .finite .positive mantissa exponent pos := by
  cases decoded : ofFloat x with
  | undefined =>
      rw [decoded] at positive
      cases positive
  | infinite negative =>
      rw [decoded] at positive
      cases positive
  | finite negative mantissa exponent =>
      rw [decoded, isPositive, Bool.and_eq_true, Bool.not_eq_true', decide_eq_true_iff] at positive
      obtain ⟨rfl, pos⟩ := positive
      exact ⟨mantissa, exponent, pos, unpack_of_ofFloat decoded pos⟩

theorem isPositive_powersOfTen :
    ∀ x ∈ Float.exactlyRepresentablePowersOfTen.toList, (ofFloat x).isPositive = true := by
  decide

theorem isUnsigned_ofScientific
    (digits : Nat)
    (negative : Bool)
    (exponent : Nat) :
    IsUnsigned (Float.ofScientific digits negative exponent) := by
  rw [Float.ofScientific]
  split
  · next few =>
    have unsigned := isUnsigned_toFloat digits.toUInt64
    have less : exponent < Float.exactlyRepresentablePowersOfTen.size :=
      Nat.lt_of_le_of_lt few.2 (by decide)
    obtain ⟨m, e, pos, power⟩ := exists_unpack_of_isPositive
      (isPositive_powersOfTen _ (Array.mem_toList_iff.mpr (Array.getElem_mem less)))
    dsimp only
    split
    · change IsUnsigned ⟨Float.Model.pack (div Format.binary64
        digits.toUInt64.toFloat.toModel.unpack
        Float.exactlyRepresentablePowersOfTen[exponent].toModel.unpack)⟩
      rw [power]
      exact (unsigned.div_finite pos).pack
    · change IsUnsigned ⟨Float.Model.pack (mul Format.binary64
        digits.toUInt64.toFloat.toModel.unpack
        Float.exactlyRepresentablePowersOfTen[exponent].toModel.unpack)⟩
      rw [power]
      exact (unsigned.mul_finite pos).pack
  · dsimp only
    generalize (if negative = true then Int.negOfNat exponent else Int.ofNat exponent) = place
    change IsUnsigned ⟨Float.Model.pack (ofScientific Format.binary64 digits place)⟩
    refine Unsigned.pack ?_
    rw [ofScientific]
    split
    · exact .magnitude .zero
    split
    · exact .infinity
    split
    · exact .magnitude .zero
    split
    · exact Unsigned.mul_finite (.magnitude (.finite _)) _
    · exact Unsigned.div_finite (.magnitude (.finite _)) _

/-- A literal has no sign, however many digits it has. -/
theorem isUnsigned_value
    (literal : Decimal.Literal) :
    IsUnsigned literal.value := by
  have zero : IsUnsigned 0.0 := by
    rw [IsUnsigned, unpack_zero]
    exact .magnitude .zero
  have infinite : (1.0 / 0.0 : Float).toModel.unpack = .infinity .positive := by rfl
  unfold Decimal.Literal.value
  split
  · exact zero
  dsimp only
  split
  · rw [IsUnsigned, infinite]
    exact .infinity
  split
  · exact zero
  · exact isUnsigned_ofScientific _ _ _

end Binary
end Darkroom
