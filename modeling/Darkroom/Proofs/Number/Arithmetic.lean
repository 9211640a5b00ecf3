import Darkroom.Proofs.Number.Double

/-!
# Comparisons and products of doubles

A finite double has 53 digits or the least exponent, so that one that is not less than another has
the greater exponent or no smaller digits.  A number that is very small or very large is still so
when it is rounded and packed, whether or not it becomes zero, a double of fewer digits or infinity.
The product of two doubles without a sign and without a positive exponent is therefore finite, and
times zero it is zero.
-/

namespace Darkroom
namespace Binary

open Float.Model (Format UnpackedFloat totalExponent)
open Float.Model.UnpackedFloat hiding round normalize

/-- A finite double has 53 digits, or fewer behind the least exponent. -/
theorem le_mantissa_of_ofFloat
    {x : Float}
    {negative : Bool}
    {mantissa : Nat}
    {exponent : Int}
    (decoded : ofFloat x = .finite negative mantissa exponent) :
    2 ^ 52 ≤ mantissa ∨ exponent = -1074 := by
  unfold ofFloat at decoded
  dsimp only at decoded
  split at decoded
  · split at decoded <;> cases decoded
  split at decoded
  · exact .inr (Binary.finite.inj decoded).2.2.symm
  · obtain ⟨-, rfl, -⟩ := Binary.finite.inj decoded
    omega

theorem exponent_mem_of_ofFloat
    {x : Float}
    {negative : Bool}
    {mantissa : Nat}
    {exponent : Int}
    (decoded : ofFloat x = .finite negative mantissa exponent) :
    -1074 ≤ exponent ∧ exponent ≤ 971 := by
  unfold ofFloat at decoded
  dsimp only at decoded
  split at decoded
  · split at decoded <;> cases decoded
  split at decoded <;>
  · obtain ⟨-, -, rfl⟩ := Binary.finite.inj decoded
    omega

theorem le_wholePart
    {mantissa : Nat}
    {exponent : Int}
    (large : 2 ^ 52 ≤ mantissa)
    (notSmall : -52 ≤ exponent) :
    1 ≤ wholePart mantissa exponent := by
  unfold wholePart
  split
  · exact Nat.mul_pos (by omega) (Nat.two_pow_pos _)
  · refine (Nat.one_le_div_iff (Nat.two_pow_pos _)).mpr (le_trans ?_ large)
    exact Nat.pow_le_pow_right (by decide) (by omega)

theorem lt_iff_compare
    (x y : Float) :
    x < y ↔ x.toModel.unpack.compare y.toModel.unpack = some .lt := by
  change decide (_ = true) = true ↔ _
  rw [decide_eq_true_iff]
  exact beq_iff_eq

theorem le_iff_le
    (x y : Float) :
    x ≤ y ↔ x.toModel.unpack.le y.toModel.unpack = true := by
  change decide (_ = true) = true ↔ _
  rw [decide_eq_true_iff]
  rfl

/-- A number that is not less than one has a whole part. -/
theorem one_le_of_not_lt
    {x : Float}
    (number : x.isNaN = false)
    (notLess : ¬ x < 1.0) :
    ofFloat x = .infinite false ∨
      ∃ mantissa exponent, ofFloat x = .finite false mantissa exponent ∧
        1 ≤ wholePart mantissa exponent := by
  have one : (1.0 : Float).toModel.unpack = .finite .positive (2 ^ 52) (-52) (by decide) := by
    rfl
  have isNumber : x.toModel.unpack.isNaN = false := number
  have decoded := ofFloat_eq_ofUnpacked x
  rw [lt_iff_compare, one] at notLess
  cases unpacked : x.toModel.unpack with
  | notANumber =>
      rw [unpacked] at isNumber
      cases isNumber
  | infinity sign =>
      rw [unpacked] at decoded notLess
      cases sign with
      | positive => exact .inl decoded
      | negative => exact absurd rfl notLess
  | zero sign =>
      rw [unpacked] at notLess
      exact absurd rfl notLess
  | finite sign mantissa exponent pos =>
      rw [unpacked] at decoded notLess
      cases sign with
      | negative => exact absurd rfl notLess
      | positive =>
          refine .inr ⟨mantissa, exponent, decoded, ?_⟩
          have ordered : (compare exponent (-52)).then (compare mantissa (2 ^ 52)) ≠ .lt :=
            fun less => notLess (congrArg some less)
          have notSmall : -52 ≤ exponent := by
            by_contra small
            rw [Int.compare_eq_lt.mpr (by omega)] at ordered
            exact ordered rfl
          refine le_wholePart ?_ notSmall
          exact (le_mantissa_of_ofFloat decoded).resolve_right (by omega)

theorem unpack_of_ofFloat
    {x : Float}
    {mantissa : Nat}
    {exponent : Int}
    (decoded : ofFloat x = .finite false mantissa exponent)
    (pos : 0 < mantissa) :
    x.toModel.unpack = .finite .positive mantissa exponent pos := by
  rw [ofFloat_eq_ofUnpacked] at decoded
  generalize x.toModel.unpack = u at decoded
  cases u with
  | notANumber => cases decoded
  | infinity sign => cases decoded
  | zero sign =>
      obtain ⟨-, rfl, -⟩ := Binary.finite.inj decoded
      exact absurd pos (Nat.lt_irrefl 0)
  | finite sign m p pos' =>
      obtain ⟨positive, rfl, rfl⟩ := Binary.finite.inj decoded
      cases sign with
      | positive => rfl
      | negative => cases positive

theorem unpack_of_ofFloat_zero
    {x : Float}
    {exponent : Int}
    (decoded : ofFloat x = .finite false 0 exponent) :
    x.toModel.unpack = .zero .positive := by
  rw [ofFloat_eq_ofUnpacked] at decoded
  generalize x.toModel.unpack = u at decoded
  cases u with
  | notANumber => cases decoded
  | infinity sign => cases decoded
  | zero sign =>
      cases sign with
      | positive => rfl
      | negative => cases decoded
  | finite sign m p pos =>
      obtain ⟨-, rfl, -⟩ := Binary.finite.inj decoded
      exact absurd pos (Nat.lt_irrefl 0)

theorem unpack_zero : (0.0 : Float).toModel.unpack = .zero .positive := by
  rfl

/-- A number below zero has its sign. -/
theorem isNegative_of_lt_zero
    {x : Float}
    (less : x < 0.0) :
    ofFloat x = .infinite true ∨
      ∃ mantissa exponent, ofFloat x = .finite true mantissa exponent := by
  rw [lt_iff_compare, unpack_zero] at less
  rw [ofFloat_eq_ofUnpacked]
  cases unpacked : x.toModel.unpack with
  | notANumber =>
      rw [unpacked] at less
      cases less
  | infinity sign =>
      rw [unpacked] at less
      cases sign with
      | positive => cases less
      | negative => exact .inl rfl
  | zero sign =>
      rw [unpacked] at less
      cases less
  | finite sign mantissa exponent pos =>
      rw [unpacked] at less
      cases sign with
      | positive => cases less
      | negative => exact .inr ⟨mantissa, exponent, rfl⟩

/-- A number with digits and without a sign is above zero. -/
theorem zero_lt_of_finite
    {x : Float}
    {mantissa : Nat}
    {exponent : Int}
    (decoded : ofFloat x = .finite false mantissa exponent)
    (pos : 0 < mantissa) :
    0.0 < x := by
  rw [lt_iff_compare, unpack_zero, unpack_of_ofFloat decoded pos]
  rfl

/-! ## Products with zero -/

/-- A number that is finite and has no minus sign. -/
inductive IsMagnitude : UnpackedFloat → Prop where
  | zero : IsMagnitude (.zero .positive)
  | finite
      {mantissa : Nat}
      {exponent : Int}
      (pos : 0 < mantissa) :
      IsMagnitude (.finite .positive mantissa exponent pos)

/-- A magnitude times zero is zero. -/
theorem IsMagnitude.mul_zero
    {x : Float}
    (isMagnitude : IsMagnitude x.toModel.unpack) :
    x * 0.0 = 0.0 := by
  have zero : (0.0 : Float).toModel.unpack = .zero .positive := by rfl
  have product : mul Format.binary64 x.toModel.unpack (.zero .positive) = .zero .positive := by
    generalize x.toModel.unpack = unpacked at isMagnitude
    cases isMagnitude <;> rfl
  change (⟨Float.Model.pack (mul Format.binary64 x.toModel.unpack
    (0.0 : Float).toModel.unpack)⟩ : Float) = _
  rw [zero, product]
  rfl

/-! ## Rounding -/

theorem mantissa_shiftRight
    (digits : ExtendedMantissa)
    (shift : Nat) :
    (digits >>> shift).mantissa = digits.mantissa / 2 ^ shift := by
  induction shift with
  | zero => exact (Nat.div_one _).symm
  | succ shift inductionHypothesis =>
      change (digits >>> shift).mantissa / 2 = _
      rw [inductionHypothesis, Nat.div_div_eq_div_mul, Nat.pow_succ]

theorem log2_le_of_lt
    {n bits : Nat}
    (less : n < 2 ^ (bits + 1)) :
    n.log2 ≤ bits := by
  rcases Nat.eq_zero_or_pos n with rfl | pos
  · exact Nat.zero_le _
  · exact Nat.lt_succ_iff.mp ((Nat.log2_lt (Nat.ne_of_gt pos)).mpr less)

/-- Rounding leaves the digits as they are, or adds one. -/
theorem roundedMantissa_near
    (digits : ExtendedMantissa) :
    digits.mantissa ≤ digits.roundedMantissa ∧
      digits.roundedMantissa ≤ digits.mantissa + 1 := by
  obtain ⟨mantissa, roundBit, stickyBit⟩ := digits
  cases roundBit <;> cases stickyBit <;>
    simp only [ExtendedMantissa.roundedMantissa, ExtendedMantissa.accuracy,
      Accuracy.roundToNearestEven] <;> omega

theorem mantissa_ofMantissaAndAccuracy
    (mantissa : Nat)
    (accuracy : Accuracy) :
    (ExtendedMantissa.ofMantissaAndAccuracy mantissa accuracy).mantissa = mantissa := by
  rcases accuracy with _ | order
  · rfl
  · cases order <;> rfl

section Digits

variable {mantissa : Nat} {exponent place : Int}

/-- Digits are shifted until there are 53, and to the least exponent at least. -/
theorem exists_shift
    (mantissa : Nat)
    (exponent : Int)
    (accuracy : Accuracy) :
    ∃ shift : Nat, (shift : Int) = max 0 (max ((mantissa.log2 : Int) - 52) (-1074 - exponent)) ∧
      (shiftToTargetExponent Format.binary64 mantissa exponent accuracy).1.mantissa =
        mantissa / 2 ^ shift ∧
      (shiftToTargetExponent Format.binary64 mantissa exponent accuracy).2 = exponent + shift := by
  let shift := (Format.binary64.targetExponent (totalExponent mantissa exponent) - exponent).toNat
  refine ⟨shift, ?_, ?_, rfl⟩
  · simp only [shift, Format.targetExponent, totalExponent, Format.mantissaBits, Format.minExponent]
    omega
  · refine (mantissa_shiftRight _ shift).trans ?_
    rw [mantissa_ofMantissaAndAccuracy]

theorem div_two_pow_lt
    {shift : Nat}
    (enough : mantissa.log2 ≤ 52 + shift) :
    mantissa / 2 ^ shift < 2 ^ 53 := by
  rw [Nat.div_lt_iff_lt_mul (Nat.two_pow_pos shift), ← Nat.pow_add]
  exact Nat.lt_log2_self.trans_le (Nat.pow_le_pow_right two_pos (by omega))

theorem le_div_two_pow
    {shift : Nat}
    (nonzero : mantissa ≠ 0)
    (enough : 52 + shift ≤ mantissa.log2) :
    2 ^ 52 ≤ mantissa / 2 ^ shift := by
  rw [Nat.le_div_iff_mul_le (Nat.two_pow_pos shift), ← Nat.pow_add]
  exact (Nat.pow_le_pow_right two_pos enough).trans (Nat.log2_self_le nonzero)

/-! ## Very small and very large doubles -/

/-- A number without a sign that is zero or has an exponent no greater than the given one. -/
inductive Tiny (place : Int) : UnpackedFloat → Prop where
  /-- Zero. -/
  | zero : Tiny place (.zero .positive)
  /-- A number with digits. -/
  | finite
      {mantissa : Nat}
      {exponent : Int}
      (pos : 0 < mantissa)
      (few : mantissa < 2 ^ 53)
      (low : exponent ≤ place) :
      Tiny place (.finite .positive mantissa exponent pos)

/-- A number without a sign that is infinite or has 53 digits and an exponent no less than the given
one. -/
inductive Huge (place : Int) : UnpackedFloat → Prop where
  /-- Infinity. -/
  | infinity : Huge place (.infinity .positive)
  /-- A number with digits. -/
  | finite
      {mantissa : Nat}
      {exponent : Int}
      (pos : 0 < mantissa)
      (many : 2 ^ 52 ≤ mantissa)
      (few : mantissa < 2 ^ 53)
      (high : place ≤ exponent) :
      Huge place (.finite .positive mantissa exponent pos)

theorem unpack_packedInfinity :
    unpack Format.binary64 (packedInfinity Format.binary64 .positive) = .infinity .positive := by
  rfl

theorem biasedExponent_eq
    (exponent : Int) :
    (exponent + Format.binary64.exponentBias + (52 : Nat)).toNat = (exponent + 1075).toNat := by
  rw [Int.add_assoc]
  rfl

theorem tiny_unpack_packComponents
    {field : BitVec 11}
    (low : (field.toNat : Int) - 1075 ≤ place)
    (least : -1074 ≤ place)
    (most : place ≤ 900)
    (fraction : BitVec 52) :
    Tiny place (unpack Format.binary64
      (packComponents Format.binary64 .positive field fraction)) := by
  have notLast : field ≠ -1#11 := by
    rintro rfl
    change ((2047 : Nat) : Int) - 1075 ≤ place at low
    omega
  simp only [unpack, unpackMantissa_packComponents, unpackExponent_packComponents,
    unpackSign_packComponents, Sign.ofBitVec_toBitVec]
  rw [if_neg notLast]
  split
  · next first =>
    split
    · exact .zero
    · refine .finite _ (fraction.isLt.trans (by decide)) ?_
      rw [first]
      exact least
  · refine .finite _ ?_ low
    rw [toNat_implicit_append]
    have few := fraction.isLt
    omega

/-- A very small number is very small when it is packed, also when it has too few digits. -/
theorem Tiny.unpack_pack
    {u : UnpackedFloat}
    (tiny : Tiny place u)
    (least : -1074 ≤ place)
    (most : place ≤ 900) :
    Tiny place (unpack Format.binary64 (pack Format.binary64 u)) := by
  cases tiny with
  | zero => exact .zero
  | @finite mantissa exponent pos few low =>
      have fits : ¬ 2 ^ 11 ≤ (exponent + 1075).toNat + 1 := by omega
      simp only [pack, biasedExponent_eq]
      rw [if_neg fits]
      split
      · refine tiny_unpack_packComponents ?_ least most _
        rw [BitVec.toNat_ofNat]
        omega
      · refine tiny_unpack_packComponents ?_ least most _
        change ((0 : Nat) : Int) - 1075 ≤ place
        omega

/-- A very large number is very large when it is packed, or infinite. -/
theorem Huge.unpack_pack
    {u : UnpackedFloat}
    (huge : Huge place u)
    (least : -1074 ≤ place) :
    Huge place (unpack Format.binary64 (pack Format.binary64 u)) := by
  cases huge with
  | infinity => exact .infinity
  | @finite mantissa exponent pos many few high =>
      rcases le_or_gt exponent 971 with inRange | outOfRange
      · have isNormal : IsNormal mantissa exponent := ⟨many, few, by omega, inRange⟩
        rw [isNormal.unpack_pack]
        exact .finite pos many few high
      · have overflows : 2 ^ 11 ≤ (exponent + 1075).toNat + 1 := by omega
        simp only [pack, biasedExponent_eq]
        rw [if_pos overflows, unpack_packedInfinity]
        exact .infinity

/-- What is very small is rounded to a number that is very small. -/
theorem tiny_roundWithAccuracy
    (least : -1073 ≤ place)
    (low : exponent < place)
    (few : mantissa.log2 + exponent < 52 + place)
    (accuracy : Accuracy) :
    Tiny place (roundWithAccuracy Format.binary64 .positive mantissa exponent accuracy) := by
  obtain ⟨shift, amount, digits, shifted⟩ := exists_shift mantissa exponent accuracy
  rw [roundWithAccuracy]
  generalize shiftToTargetExponent Format.binary64 mantissa exponent accuracy = first
    at digits shifted
  obtain ⟨first, exponent'⟩ := first
  dsimp only at digits shifted ⊢
  have cut : mantissa / 2 ^ shift < 2 ^ 53 := div_two_pow_lt (by omega)
  have rounded : first.roundedMantissa ≤ 2 ^ 53 := by
    have upper := (roundedMantissa_near first).2
    omega
  have logarithm : first.roundedMantissa.log2 ≤ 53 := log2_le_of_lt (by omega)
  obtain ⟨shift', amount', digits', shifted'⟩ := exists_shift first.roundedMantissa exponent' .exact
  split
  · exact .zero
  · refine .finite _ ?_ (by omega)
    rw [digits']
    exact div_two_pow_lt (by omega)

/-- What is very large is rounded to a number that is very large. -/
theorem huge_roundWithAccuracy
    (least : -1074 ≤ place)
    (many : 2 ^ 52 ≤ mantissa)
    (high : 52 + place ≤ mantissa.log2 + exponent)
    (accuracy : Accuracy) :
    Huge place (roundWithAccuracy Format.binary64 .positive mantissa exponent accuracy) := by
  have nonzero : mantissa ≠ 0 := by omega
  have enough : 52 ≤ mantissa.log2 := (Nat.le_log2 nonzero).mpr many
  obtain ⟨shift, amount, digits, shifted⟩ := exists_shift mantissa exponent accuracy
  rw [roundWithAccuracy]
  generalize shiftToTargetExponent Format.binary64 mantissa exponent accuracy = first
    at digits shifted
  obtain ⟨first, exponent'⟩ := first
  dsimp only at digits shifted ⊢
  have rounded : 2 ^ 52 ≤ first.roundedMantissa := by
    have cut : 2 ^ 52 ≤ mantissa / 2 ^ shift := le_div_two_pow nonzero (by omega)
    have lower := (roundedMantissa_near first).1
    omega
  have logarithm : 52 ≤ first.roundedMantissa.log2 := (Nat.le_log2 (by omega)).mpr rounded
  obtain ⟨shift', amount', digits', shifted'⟩ := exists_shift first.roundedMantissa exponent' .exact
  have left : 2 ^ 52 ≤ first.roundedMantissa / 2 ^ shift' :=
    le_div_two_pow (by omega) (by omega)
  split
  · next nothing => omega
  · refine .finite _ ?_ ?_ (by omega)
    · rwa [digits']
    · rw [digits']
      exact div_two_pow_lt (by omega)

end Digits

theorem Tiny.isMagnitude
    {place : Int}
    {u : UnpackedFloat}
    (tiny : Tiny place u) :
    IsMagnitude u := by
  cases tiny with
  | zero => exact .zero
  | finite pos => exact .finite pos

/-- A product of very small numbers. -/
theorem Tiny.mul
    {p q place : Int}
    {u v : UnpackedFloat}
    (first : Tiny p u)
    (second : Tiny q v)
    (least : -1073 ≤ place)
    (enough : p + q + 53 < place) :
    Tiny place (mul Format.binary64 u v) := by
  cases first with
  | zero => cases second <;> exact .zero
  | @finite m e pos few low =>
      cases second with
      | zero => exact .zero
      | @finite n f pos' few' low' =>
          rw [mul_finite_positive]
          have product : m * n < 2 ^ 106 :=
            calc m * n < 2 ^ 53 * 2 ^ 53 := Nat.mul_lt_mul'' few few'
              _ = 2 ^ 106 := by rw [← Nat.pow_add]
          have digits : (m * n).log2 ≤ 105 := log2_le_of_lt product
          exact tiny_roundWithAccuracy least (by omega) (by omega) .exact

/-! ## Fractions -/

/-- Whether a number is finite, without a sign and without a positive exponent. -/
def isSmall : Binary → Bool
  | .finite negative _ exponent => !negative && decide (exponent ≤ 0)
  | _ => false

/-- A double without a sign and without a positive exponent. -/
def IsFraction (x : Float) : Prop :=
  (ofFloat x).isSmall = true

instance : DecidablePred IsFraction :=
  fun _ => inferInstanceAs (Decidable (_ = true))

theorem IsFraction.exists_finite
    {x : Float}
    (isFraction : IsFraction x) :
    ∃ mantissa exponent, ofFloat x = .finite false mantissa exponent ∧ exponent ≤ 0 := by
  unfold IsFraction at isFraction
  cases decoded : ofFloat x with
  | undefined =>
      rw [decoded] at isFraction
      cases isFraction
  | infinite negative =>
      rw [decoded] at isFraction
      cases isFraction
  | finite negative mantissa exponent =>
      rw [decoded, isSmall, Bool.and_eq_true, Bool.not_eq_true', decide_eq_true_iff] at isFraction
      obtain ⟨rfl, small⟩ := isFraction
      exact ⟨mantissa, exponent, rfl, small⟩

theorem IsFraction.tiny
    {x : Float}
    (isFraction : IsFraction x) :
    Tiny 0 x.toModel.unpack := by
  obtain ⟨mantissa, exponent, decoded, small⟩ := isFraction.exists_finite
  rcases Nat.eq_zero_or_pos mantissa with rfl | pos
  · rw [unpack_of_ofFloat_zero decoded]
    exact .zero
  · rw [unpack_of_ofFloat decoded pos]
    exact .finite pos (mantissa_lt_of_ofFloat decoded) small

theorem IsFraction.mul_zero
    {x : Float}
    (isFraction : IsFraction x) :
    x * 0.0 = 0.0 :=
  IsMagnitude.mul_zero isFraction.tiny.isMagnitude

/-- The product of two fractions is finite, and times zero it is zero. -/
theorem IsFraction.mul_mul_zero
    {x y : Float}
    (isFraction : IsFraction x)
    (other : IsFraction y) :
    x * y * 0.0 = 0.0 := by
  have product : Tiny 54 (mul Format.binary64 x.toModel.unpack y.toModel.unpack) :=
    isFraction.tiny.mul other.tiny (by decide) (by decide)
  exact IsMagnitude.mul_zero (product.unpack_pack (by decide) (by decide)).isMagnitude

end Binary

/-- The greater of a value and one, cut to a word, is at least one. -/
theorem one_le_truncUInt32_greatest
    (x : Float) :
    1 ≤ (truncUInt32 (greatestFloat x 1.0)).toNat := by
  have one : 1 ≤ (truncUInt32 1.0).toNat := by decide
  unfold greatestFloat
  split
  · exact one
  next number =>
  rw [if_neg (by decide)]
  split
  · exact one
  next notLess =>
  unfold truncUInt32
  rcases Binary.one_le_of_not_lt (Bool.eq_false_of_not_eq_true number) notLess with
    infinite | ⟨mantissa, exponent, finite, whole⟩
  · rw [infinite]
    decide
  · rw [finite, Binary.toIntBy, UInt32.toNat_ofNat']
    simp only [Bool.false_eq_true, if_false]
    omega

theorem truncUInt32_eq_zero_of_lt
    {x : Float}
    (less : x < 0.0) :
    truncUInt32 x = 0 := by
  unfold truncUInt32
  rcases Binary.isNegative_of_lt_zero less with infinite | ⟨mantissa, exponent, finite⟩
  · rw [infinite]
    rfl
  · rw [finite, Binary.toIntBy]
    simp only [if_true]
    have nothing :
        max 0 (min (2 ^ 32 - 1 : Int) (-(Binary.wholePart mantissa exponent : Int))) = 0 := by
      omega
    rw [nothing]
    rfl

/-- A value that is raised to zero is cut to the same word: the word has no place below zero. -/
theorem truncUInt32_greatest_zero
    (x : Float) :
    truncUInt32 (greatestFloat x 0.0) = truncUInt32 x := by
  have zero : truncUInt32 0.0 = 0 := by decide +kernel
  unfold greatestFloat
  split
  · next number =>
    have undefined : Binary.ofFloat x = .undefined := by
      have noNumber : x.toModel.unpack.isNaN = true := number
      rw [Binary.ofFloat_eq_ofUnpacked]
      cases unpacked : x.toModel.unpack with
      | notANumber => rfl
      | _ =>
          rw [unpacked] at noNumber
          cases noNumber
    rw [zero, truncUInt32, undefined]
    rfl
  · rw [if_neg (by decide)]
    split
    · next less => rw [zero, truncUInt32_eq_zero_of_lt less]
    · rfl

end Darkroom
