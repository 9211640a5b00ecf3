import Darkroom.Number.Binary
import Mathlib

/-!
# Doubles of full precision

A double of full precision has 53 digits behind its sign, the first of them a one.  Rounding leaves
such a double as it is, packing it into bits loses nothing, and decoding the bits gives its digits
and its exponent.  A whole number that 53 digits and a power of two make up is therefore read
without an error.
-/

namespace Darkroom
namespace Binary

open Float.Model (Format UnpackedFloat totalExponent)
open Float.Model.UnpackedFloat hiding round normalize

/-- The digits and the exponent of a double of full precision. -/
structure IsNormal (mantissa : Nat) (exponent : Int) : Prop where
  /-- The first digit is a one. -/
  lower : 2 ^ 52 ≤ mantissa
  /-- There are 53 digits. -/
  upper : mantissa < 2 ^ 53
  /-- The least exponent. -/
  least : -1074 ≤ exponent
  /-- The greatest exponent. -/
  greatest : exponent ≤ 971

variable {mantissa : Nat} {exponent : Int}

theorem IsNormal.pos
    (isNormal : IsNormal mantissa exponent) :
    0 < mantissa :=
  Nat.lt_of_lt_of_le (by decide) isNormal.lower

/-! ## Rounding -/

theorem IsNormal.log2_scaled
    (isNormal : IsNormal mantissa exponent)
    (shift : Nat) :
    (mantissa * 2 ^ shift).log2 = 52 + shift := by
  have positive : mantissa * 2 ^ shift ≠ 0 :=
    Nat.ne_of_gt (Nat.mul_pos isNormal.pos (Nat.two_pow_pos shift))
  rw [Nat.log2_eq_iff positive, Nat.add_right_comm, Nat.pow_add, Nat.pow_add]
  exact ⟨Nat.mul_le_mul_right _ isNormal.lower,
    Nat.mul_lt_mul_of_pos_right isNormal.upper (Nat.two_pow_pos shift)⟩

/-- Zeros behind the 53 digits are shifted out. -/
theorem IsNormal.targetExponent
    (isNormal : IsNormal mantissa exponent)
    (shift : Nat) :
    Format.binary64.targetExponent (totalExponent (mantissa * 2 ^ shift) (exponent - shift)) =
      exponent := by
  have least := isNormal.least
  simp only [Format.targetExponent, totalExponent, isNormal.log2_scaled, Format.mantissaBits,
    Format.minExponent]
  omega

theorem shiftRight_zeros
    (mantissa shift : Nat) :
    ExtendedMantissa.ofMantissaAndAccuracy (mantissa * 2 ^ shift) .exact >>> shift =
      ExtendedMantissa.ofMantissaAndAccuracy mantissa .exact := by
  induction shift generalizing mantissa with
  | zero => rw [Nat.pow_zero, Nat.mul_one]; rfl
  | succ shift inductionHypothesis =>
      change ExtendedMantissa.shiftRightOne
        (ExtendedMantissa.ofMantissaAndAccuracy (mantissa * 2 ^ (shift + 1)) .exact >>> shift) = _
      rw [Nat.pow_succ', ← Nat.mul_assoc, inductionHypothesis]
      simp [ExtendedMantissa.shiftRightOne, ExtendedMantissa.ofMantissaAndAccuracy]

theorem IsNormal.shiftToTargetExponent
    (isNormal : IsNormal mantissa exponent)
    (shift : Nat) :
    shiftToTargetExponent Format.binary64 (mantissa * 2 ^ shift) (exponent - shift) .exact =
      (ExtendedMantissa.ofMantissaAndAccuracy mantissa .exact, exponent) := by
  have amount : (exponent - (exponent - shift)).toNat = shift := by omega
  rw [UnpackedFloat.shiftToTargetExponent, isNormal.targetExponent, shiftToExponent,
    amount, shiftRight_zeros, Int.sub_add_cancel]

/-- A double of full precision with zeros behind its digits is rounded to itself. -/
theorem IsNormal.roundWithAccuracy
    (isNormal : IsNormal mantissa exponent)
    (sign : Sign)
    (shift : Nat) :
    roundWithAccuracy Format.binary64 sign (mantissa * 2 ^ shift) (exponent - shift) .exact =
      .finite sign mantissa exponent isNormal.pos := by
  have stays := isNormal.shiftToTargetExponent 0
  rw [Nat.pow_zero, Nat.mul_one, Int.natCast_zero, Int.sub_zero] at stays
  have rounded : (ExtendedMantissa.ofMantissaAndAccuracy mantissa .exact).roundedMantissa =
      mantissa := rfl
  rw [UnpackedFloat.roundWithAccuracy, isNormal.shiftToTargetExponent]
  dsimp only
  rw [rounded, stays]
  exact dif_neg (Nat.ne_of_gt isNormal.pos)

/-- A product is rounded once. -/
theorem mul_finite_positive
    {mantissa other : Nat}
    (exponent otherExponent : Int)
    (pos : 0 < mantissa)
    (otherPos : 0 < other) :
    mul Format.binary64 (.finite .positive mantissa exponent pos)
        (.finite .positive other otherExponent otherPos) =
      UnpackedFloat.roundWithAccuracy Format.binary64 .positive (mantissa * other)
        (exponent + otherExponent) .exact := rfl

/-! ## Packing -/

theorem toNat_implicit_append
    (fraction : BitVec 52) :
    (1#1 ++ fraction).toNat = fraction.toNat + 2 ^ 52 := by
  rw [BitVec.toNat_append, ← Nat.shiftLeft_add_eq_or_of_lt fraction.isLt, Nat.add_comm]
  rfl

/-- Packing a double of full precision loses nothing. -/
theorem IsNormal.unpack_pack
    (isNormal : IsNormal mantissa exponent)
    (sign : Sign) :
    unpack Format.binary64 (pack Format.binary64 (.finite sign mantissa exponent isNormal.pos)) =
      .finite sign mantissa exponent isNormal.pos := by
  obtain ⟨lower, upper, least, greatest⟩ := isNormal
  have digits : mantissa.log2 = 52 := by
    have scaled := IsNormal.log2_scaled ⟨lower, upper, least, greatest⟩ 0
    rwa [Nat.pow_zero, Nat.mul_one] at scaled
  have biased : (exponent + Format.binary64.exponentBias +
      Format.binary64.mantissaBitsWithoutImplicit).toNat = (exponent + 1075).toNat := by
    rw [Int.add_assoc]
    rfl
  have field : (BitVec.ofNat 11 (exponent + 1075).toNat).toNat = (exponent + 1075).toNat := by
    rw [BitVec.toNat_ofNat]
    omega
  have notLast : BitVec.ofNat 11 (exponent + 1075).toNat ≠ -1#11 := by
    rw [Ne, ← BitVec.toNat_inj, field]
    change (exponent + 1075).toNat ≠ 2047
    omega
  have notFirst : BitVec.ofNat 11 (exponent + 1075).toNat ≠ 0#11 := by
    rw [Ne, ← BitVec.toNat_inj, field]
    change (exponent + 1075).toNat ≠ 0
    omega
  have fraction : (1#1 ++ BitVec.ofNat 52 mantissa).toNat = mantissa := by
    rw [toNat_implicit_append, BitVec.toNat_ofNat]
    omega
  have packed : pack Format.binary64 (.finite sign mantissa exponent (by omega)) =
      packComponents Format.binary64 sign (BitVec.ofNat 11 (exponent + 1075).toNat)
        (BitVec.ofNat 52 mantissa) := by
    have fits : ¬ 2 ^ 11 ≤ (exponent + 1075).toNat + 1 := by omega
    simp only [pack, biased, digits]
    rw [if_neg fits]
    exact if_pos rfl
  have unbiased : ((exponent + 1075).toNat : Int) -
      (Format.binary64.exponentBias + Format.binary64.mantissaBitsWithoutImplicit) = exponent := by
    change ((exponent + 1075).toNat : Int) - 1075 = exponent
    omega
  rw [packed]
  simp only [unpack, unpackMantissa_packComponents, unpackExponent_packComponents,
    unpackSign_packComponents, Sign.ofBitVec_toBitVec]
  rw [if_neg notLast, if_neg notFirst]
  simp only [field, fraction, unbiased]

/-! ## Decoding -/

/-- Whether a sign is negative. -/
def isNegative : Sign → Bool
  | .negative => true
  | .positive => false

/-- What an unpacked double stands for. -/
def ofUnpacked : UnpackedFloat → Binary
  | .notANumber => .undefined
  | .infinity sign => .infinite (isNegative sign)
  | .zero sign => .finite (isNegative sign) 0 (-1074)
  | .finite sign mantissa exponent _ => .finite (isNegative sign) mantissa exponent

theorem toNat_unpackMantissa
    (bits : BitVec Format.binary64.numBits) :
    (unpackMantissa bits).toNat = bits.toNat % 2 ^ 52 := by
  rw [unpackMantissa, BitVec.toNat_cast, BitVec.extractLsb_toNat, Nat.shiftRight_zero]
  rfl

theorem toNat_unpackExponent
    (bits : BitVec Format.binary64.numBits) :
    (unpackExponent bits).toNat = bits.toNat / 2 ^ 52 % 2 ^ 11 := by
  rw [unpackExponent, BitVec.toNat_cast, BitVec.extractLsb_toNat, Nat.shiftRight_eq_div_pow]
  rfl

theorem isNegative_unpackSign
    (bits : BitVec Format.binary64.numBits) :
    isNegative (Sign.ofBitVec (unpackSign bits)) = decide (2 ^ 63 ≤ bits.toNat) := by
  have less : bits.toNat < 2 ^ 64 := bits.isLt
  have value : (unpackSign bits).toNat = bits.toNat / 2 ^ 63 := by
    rw [unpackSign, BitVec.toNat_cast, BitVec.extractLsb_toNat, Nat.shiftRight_eq_div_pow]
    change bits.toNat / 2 ^ 63 % 2 ^ 1 = _
    omega
  have zero : unpackSign bits = 0#1 ↔ bits.toNat < 2 ^ 63 := by
    rw [← BitVec.toNat_inj, value]
    change bits.toNat / 2 ^ 63 = 0 ↔ _
    omega
  unfold Sign.ofBitVec
  split
  · next positive => simpa [isNegative] using zero.mp positive
  · next negative => simpa [isNegative] using mt zero.mpr negative

theorem ofUnpacked_unpack
    (bits : BitVec Format.binary64.numBits) :
    ofUnpacked (unpack Format.binary64 bits) =
      if bits.toNat / 2 ^ 52 % 2 ^ 11 = 2047 then
        if bits.toNat % 2 ^ 52 = 0 then .infinite (decide (2 ^ 63 ≤ bits.toNat)) else .undefined
      else if bits.toNat / 2 ^ 52 % 2 ^ 11 = 0 then
        .finite (decide (2 ^ 63 ≤ bits.toNat)) (bits.toNat % 2 ^ 52) (-1074)
      else
        .finite (decide (2 ^ 63 ≤ bits.toNat)) (bits.toNat % 2 ^ 52 + 2 ^ 52)
          ((bits.toNat / 2 ^ 52 % 2 ^ 11 : Nat) - 1075) := by
  have last : unpackExponent bits = -1#11 ↔ bits.toNat / 2 ^ 52 % 2 ^ 11 = 2047 := by
    rw [← BitVec.toNat_inj, toNat_unpackExponent]
    rfl
  have first : unpackExponent bits = 0#11 ↔ bits.toNat / 2 ^ 52 % 2 ^ 11 = 0 := by
    rw [← BitVec.toNat_inj, toNat_unpackExponent]
    rfl
  have nothing : unpackMantissa bits = 0#52 ↔ bits.toNat % 2 ^ 52 = 0 := by
    rw [← BitVec.toNat_inj, toNat_unpackMantissa]
    rfl
  rw [← isNegative_unpackSign]
  unfold unpack
  simp only [last, first, nothing]
  split
  · split <;> rfl
  split
  · next subnormal =>
    split
    · next zero => rw [ofUnpacked, zero]
    · rw [ofUnpacked, toNat_unpackMantissa, toNat_unpackExponent, subnormal]
      rfl
  · rw [ofUnpacked, toNat_implicit_append, toNat_unpackMantissa, toNat_unpackExponent]
    rfl

/-- Decoding the bits is unpacking them. -/
theorem ofFloat_eq_ofUnpacked
    (x : Float) :
    ofFloat x = ofUnpacked x.toModel.unpack :=
  (ofUnpacked_unpack x.toModel.toBits.toBitVec).symm

/-- A finite double has at most 53 digits. -/
theorem mantissa_lt_of_ofFloat
    {x : Float}
    {negative : Bool}
    (decoded : ofFloat x = .finite negative mantissa exponent) :
    mantissa < 2 ^ 53 := by
  unfold ofFloat at decoded
  dsimp only at decoded
  split at decoded
  · split at decoded <;> cases decoded
  split at decoded <;>
  · obtain ⟨-, rfl, -⟩ := Binary.finite.inj decoded
    omega

/-! ## Doubles of full precision -/

/-- The double of full precision with the given sign. -/
def IsNormal.double
    (isNormal : IsNormal mantissa exponent)
    (sign : Sign) :
    Float :=
  ⟨Float.Model.pack (.finite sign mantissa exponent isNormal.pos)⟩

theorem IsNormal.unpack_double
    (isNormal : IsNormal mantissa exponent)
    (sign : Sign) :
    (isNormal.double sign).toModel.unpack = .finite sign mantissa exponent isNormal.pos :=
  isNormal.unpack_pack sign

theorem IsNormal.ofFloat_double
    (isNormal : IsNormal mantissa exponent)
    (sign : Sign) :
    ofFloat (isNormal.double sign) = .finite (isNegative sign) mantissa exponent := by
  rw [ofFloat_eq_ofUnpacked, isNormal.unpack_double, ofUnpacked]

theorem IsNormal.neg_double
    (isNormal : IsNormal mantissa exponent) :
    -isNormal.double .positive = isNormal.double .negative := by
  change (⟨Float.Model.pack (isNormal.double .positive).toModel.unpack.neg⟩ : Float) = _
  rw [isNormal.unpack_double]
  rfl

/-- A double of full precision times one is itself. -/
theorem IsNormal.double_mul_one
    (isNormal : IsNormal mantissa exponent) :
    isNormal.double .positive * Float.exactlyRepresentablePowersOfTen[0] =
      isNormal.double .positive := by
  have one : Float.exactlyRepresentablePowersOfTen[0].toModel.unpack =
      .finite .positive (2 ^ 52) (-52) (by decide) := by
    rfl
  change (⟨Float.Model.pack (mul Format.binary64 (isNormal.double .positive).toModel.unpack
    Float.exactlyRepresentablePowersOfTen[0].toModel.unpack)⟩ : Float) = _
  have place : exponent + -52 = exponent - (52 : Nat) := Int.sub_eq_add_neg
  rw [isNormal.unpack_double, one, mul_finite_positive, place, isNormal.roundWithAccuracy]
  rfl

/-! ## Whole numbers -/

/-- Whole numbers of 53 digits with zeros behind them. -/
def IsExact (n : Nat) : Prop :=
  ∃ mantissa shift, mantissa < 2 ^ 53 ∧ n = mantissa * 2 ^ shift

theorem isExact_of_le
    {n : Nat}
    (small : n ≤ 2 ^ 53) :
    IsExact n := by
  rcases Nat.lt_or_eq_of_le small with less | rfl
  · exact ⟨n, 0, less, by rw [Nat.pow_zero, Nat.mul_one]⟩
  · exact ⟨1, 53, by decide, by decide⟩

theorem isExact_wholePart
    (less : mantissa < 2 ^ 53)
    (exponent : Int) :
    IsExact (wholePart mantissa exponent) := by
  unfold wholePart
  split
  · exact ⟨mantissa, exponent.toNat, less, rfl⟩
  · exact isExact_of_le (Nat.le_of_lt (Nat.lt_of_le_of_lt (Nat.div_le_self _ _) less))

/-- A whole number of at most 53 digits is brought to full precision by zeros behind it. -/
theorem round_of_log2_le
    {n : Nat}
    (few : n.log2 ≤ 52)
    (isNormal : IsNormal (n * 2 ^ (52 - n.log2)) (n.log2 - 52)) :
    UnpackedFloat.round Format.binary64 .positive n 0 =
      .finite .positive (n * 2 ^ (52 - n.log2)) (n.log2 - 52) isNormal.pos := by
  have target : Format.binary64.targetExponent (totalExponent n 0) = n.log2 - 52 := by
    simp only [Format.targetExponent, totalExponent, Format.mantissaBits, Format.minExponent]
    omega
  have amount : (0 - ((n.log2 : Int) - 52)).toNat = 52 - n.log2 := by omega
  have decreased : (0 : Int) - (52 - n.log2 : Nat) = n.log2 - 52 := by omega
  have stays := isNormal.roundWithAccuracy .positive 0
  rw [Nat.pow_zero, Nat.mul_one, Int.natCast_zero, Int.sub_zero] at stays
  simp only [UnpackedFloat.round, decreaseExponent, target, amount, decreased, Nat.shiftLeft_eq,
    stays]

theorem ofScientific_of_lt
    {n : Nat}
    (pos : 0 < n)
    (less : n < 2 ^ 53)
    (isNormal : IsNormal (n * 2 ^ (52 - n.log2)) (n.log2 - 52)) :
    Float.ofScientific n false 0 = isNormal.double .positive := by
  have few : n.log2 ≤ 52 := Nat.lt_succ_iff.mp ((Nat.log2_lt (Nat.ne_of_gt pos)).mpr less)
  have word : n.toUInt64.toNat = n := by
    rw [UInt64.toNat_ofNat']
    omega
  have converted : n.toUInt64.toFloat = isNormal.double .positive := by
    change (⟨Float.Model.pack
      (UnpackedFloat.normalize Format.binary64 n.toUInt64.toNat 0 .positive)⟩ : Float) = _
    have compared : compare (n : Int) 0 = .gt := Int.compare_eq_gt.mpr (by omega)
    simp only [word, UnpackedFloat.normalize, compared, Int.toNat_natCast,
      round_of_log2_le few isNormal]
    rfl
  rw [Float.ofScientific, dif_pos ⟨less, by decide⟩]
  simp only [Bool.false_eq_true, if_false, converted]
  exact isNormal.double_mul_one

/-- A whole number of more than 53 digits is rounded once. -/
theorem ofScientific_of_large
    {n : Nat}
    (large : 2 ^ 53 ≤ n) :
    Float.ofScientific n false 0 =
      ⟨Float.Model.pack (UnpackedFloat.roundWithAccuracy Format.binary64 .positive (n * 2 ^ 53)
        (-53) .exact)⟩ := by
  have nonzero : n ≠ 0 := Nat.ne_of_gt (Nat.lt_of_lt_of_le (by decide) large)
  have noOverflow : ¬ (0 : Int) > 2 ^ Format.binary64.exponentBits := by decide
  have noUnderflow : ¬ (0 : Int) < -(2 ^ Format.binary64.exponentBits + n.log2) := by
    change ¬ (0 : Int) < -(2048 + _)
    omega
  have digits : n <<< Format.binary64.mantissaBits * 10 ^ Int.toNat 0 = n * 2 ^ 53 := by
    rw [Nat.shiftLeft_eq, Int.toNat_zero, Nat.pow_zero, Nat.mul_one]
    rfl
  have place : -(Format.binary64.mantissaBits : Int) + 0 = -53 := rfl
  have scientific : ofScientific Format.binary64 n 0 =
      UnpackedFloat.roundWithAccuracy Format.binary64 .positive (n * 2 ^ 53) (-53) .exact := by
    rw [ofScientific, dif_neg nonzero, if_neg noOverflow, if_neg noUnderflow, if_pos (by decide)]
    rw [mul_finite_positive, digits, place]
  rw [Float.ofScientific, dif_neg (fun small => Nat.not_lt.mpr large small.1)]
  change (⟨Float.Model.pack (ofScientific Format.binary64 _ 0)⟩ : Float) = _
  rw [scientific]

theorem ofScientific_of_le
    (isNormal : IsNormal mantissa exponent)
    (whole : 0 ≤ exponent)
    (large : 2 ^ 53 ≤ mantissa * 2 ^ exponent.toNat) :
    Float.ofScientific (mantissa * 2 ^ exponent.toNat) false 0 = isNormal.double .positive := by
  have digits : mantissa * 2 ^ exponent.toNat * 2 ^ 53 = mantissa * 2 ^ (exponent.toNat + 53) := by
    rw [Nat.mul_assoc, Nat.pow_add]
  have place : (-53 : Int) = exponent - (exponent.toNat + 53 : Nat) := by omega
  rw [ofScientific_of_large large, digits, place, isNormal.roundWithAccuracy]
  rfl

theorem isNormal_of_lt
    {n : Nat}
    (pos : 0 < n)
    (less : n < 2 ^ 53) :
    IsNormal (n * 2 ^ (52 - n.log2)) (n.log2 - 52) := by
  have few : n.log2 ≤ 52 := Nat.lt_succ_iff.mp ((Nat.log2_lt (Nat.ne_of_gt pos)).mpr less)
  have zeros := Nat.two_pow_pos (52 - n.log2)
  refine ⟨?_, ?_, by omega, by omega⟩
  · calc 2 ^ 52 = 2 ^ n.log2 * 2 ^ (52 - n.log2) := by rw [← Nat.pow_add, Nat.add_sub_of_le few]
      _ ≤ n * 2 ^ (52 - n.log2) := Nat.mul_le_mul_right _ (Nat.log2_self_le (Nat.ne_of_gt pos))
  · calc n * 2 ^ (52 - n.log2) < 2 ^ (n.log2 + 1) * 2 ^ (52 - n.log2) :=
          Nat.mul_lt_mul_of_pos_right Nat.lt_log2_self zeros
      _ = 2 ^ 53 := by rw [← Nat.pow_add]; congr 1; omega

theorem wholePart_of_lt
    {n : Nat}
    (few : n.log2 ≤ 52) :
    wholePart (n * 2 ^ (52 - n.log2)) (n.log2 - 52) = n := by
  unfold wholePart
  split
  · next whole =>
    have full : n.log2 = 52 := by omega
    rw [full]
    simp
  · have amount : (-((n.log2 : Int) - 52)).toNat = 52 - n.log2 := by omega
    rw [amount, Nat.mul_div_cancel _ (Nat.two_pow_pos _)]

/-- Zeros put behind the digits of a whole number leave its value. -/
theorem value_of_log2_le
    {n : Nat}
    (few : n.log2 ≤ 52) :
    ((n * 2 ^ (52 - n.log2) : Nat) : ℝ) * 2 ^ ((n.log2 : Int) - 52) = n := by
  have place : (n.log2 : Int) - 52 = -((52 - n.log2 : Nat) : Int) := by omega
  rw [place, zpow_neg, zpow_natCast, Nat.cast_mul, Nat.cast_pow, Nat.cast_two, mul_assoc,
    mul_inv_cancel₀ (pow_ne_zero _ two_ne_zero), mul_one]

/-- A large number of 53 digits with zeros behind them has full precision. -/
theorem exists_isNormal_of_le
    {n : Nat}
    (large : 2 ^ 53 ≤ n)
    (inRange : n.log2 < 1024)
    (isExact : IsExact n) :
    ∃ mantissa exponent, IsNormal mantissa exponent ∧ 0 ≤ exponent ∧
      n = mantissa * 2 ^ exponent.toNat := by
  obtain ⟨digits, shift, few, same⟩ := isExact
  have nonzero : n ≠ 0 := by omega
  have lower : 53 ≤ n.log2 := (Nat.le_log2 nonzero).mpr large
  have enough : n.log2 < 53 + shift := by
    rw [Nat.log2_lt nonzero, same, Nat.pow_add]
    exact Nat.mul_lt_mul_of_pos_right few (Nat.two_pow_pos shift)
  have cut : n = digits * 2 ^ (shift - (n.log2 - 52)) * 2 ^ (n.log2 - 52) := by
    rw [Nat.mul_assoc, ← Nat.pow_add, Nat.sub_add_cancel (by omega)]
    exact same
  have zeros := Nat.two_pow_pos (n.log2 - 52)
  refine ⟨digits * 2 ^ (shift - (n.log2 - 52)), (n.log2 - 52 : Nat), ⟨?_, ?_, ?_, ?_⟩, ?_, ?_⟩
  · refine Nat.le_of_mul_le_mul_right ?_ zeros
    rw [← cut, ← Nat.pow_add, Nat.add_sub_of_le (by omega)]
    exact Nat.log2_self_le nonzero
  · refine Nat.lt_of_mul_lt_mul_right (a := 2 ^ (n.log2 - 52)) ?_
    rw [← cut, ← Nat.pow_add]
    exact Nat.lt_of_lt_of_eq Nat.lt_log2_self (congrArg (2 ^ ·) (by omega))
  · omega
  · omega
  · omega
  · exact cut

/-- A whole number of 53 digits with zeros behind them is read without an error, and so is its
opposite. -/
theorem exists_ofFloat_ofScientific
    {n : Nat}
    (pos : 0 < n)
    (inRange : n.log2 < 1024)
    (isExact : IsExact n) :
    ∃ mantissa exponent, wholePart mantissa exponent = n ∧
      ofFloat (Float.ofScientific n false 0) = .finite false mantissa exponent ∧
      ofFloat (-Float.ofScientific n false 0) = .finite true mantissa exponent := by
  suffices ∃ mantissa exponent, ∃ isNormal : IsNormal mantissa exponent,
      wholePart mantissa exponent = n ∧
        Float.ofScientific n false 0 = isNormal.double .positive by
    obtain ⟨mantissa, exponent, isNormal, whole, read⟩ := this
    refine ⟨mantissa, exponent, whole, ?_, ?_⟩
    · rw [read, isNormal.ofFloat_double, isNegative]
    · rw [read, isNormal.neg_double, isNormal.ofFloat_double, isNegative]
  rcases Nat.lt_or_ge n (2 ^ 53) with small | large
  · have few : n.log2 ≤ 52 := Nat.lt_succ_iff.mp ((Nat.log2_lt (Nat.ne_of_gt pos)).mpr small)
    have isNormal := isNormal_of_lt pos small
    exact ⟨_, _, isNormal, wholePart_of_lt few, ofScientific_of_lt pos small isNormal⟩
  · obtain ⟨mantissa, exponent, isNormal, whole, rfl⟩ :=
      exists_isNormal_of_le large inRange isExact
    exact ⟨_, _, isNormal, if_pos whole, ofScientific_of_le isNormal whole large⟩

end Binary
end Darkroom
