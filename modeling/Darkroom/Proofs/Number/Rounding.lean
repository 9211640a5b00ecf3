import Darkroom.Proofs.Number.Arithmetic

/-!
# Rounding errors

One rounding to 53 digits loses no more than the part `2 ^ (-51)` of a number, as long as the number
is neither very large nor very small.  What is computed of doubles that stand for real numbers, each
up to some roundings, stands for what is computed of the numbers, up to a few more.  Two numbers
that are apart by more than their roundings compare as their doubles do.
-/

namespace Darkroom
namespace Binary

open Float.Model (Format UnpackedFloat totalExponent)
open Float.Model.UnpackedFloat hiding round normalize

/-! ## Relative errors -/

/-- What one rounding may lose of a number. -/
noncomputable def roundoff : ℝ :=
  2 ^ (-51 : Int)

theorem roundoff_nonneg : 0 ≤ roundoff :=
  zpow_nonneg (by norm_num) _

theorem roundoff_lt_one : roundoff < 1 := by
  norm_num [roundoff]

theorem roundoff_le_one : roundoff ≤ 1 :=
  roundoff_lt_one.le

/-- A number is another one up to some roundings. -/
structure Near (roundings : Nat) (r v : ℝ) : Prop where
  /-- It is not much less. -/
  lower : v * (1 - roundoff) ^ roundings ≤ r
  /-- It is not much more. -/
  upper : r ≤ v * (1 + roundoff) ^ roundings

namespace Near

variable {j k : Nat} {q r v w : ℝ}

theorem refl
    (v : ℝ) :
    Near 0 v v :=
  ⟨by rw [pow_zero, mul_one], by rw [pow_zero, mul_one]⟩

theorem eq_of_zero
    (near : Near 0 r v) :
    r = v :=
  le_antisymm (near.upper.trans_eq (mul_one v)) ((mul_one v).symm.trans_le near.lower)

theorem pow_lower_nonneg
    (k : Nat) :
    0 ≤ (1 - roundoff) ^ k :=
  pow_nonneg (sub_nonneg.mpr roundoff_le_one) k

theorem pow_lower_le_one
    (k : Nat) :
    (1 - roundoff) ^ k ≤ 1 :=
  pow_le_one₀ (sub_nonneg.mpr roundoff_le_one) (sub_le_self 1 roundoff_nonneg)

theorem one_le_pow_upper
    (k : Nat) :
    1 ≤ (1 + roundoff) ^ k :=
  one_le_pow₀ (le_add_of_nonneg_right roundoff_nonneg)

theorem nonneg
    (near : Near k r v)
    (nonneg : 0 ≤ v) :
    0 ≤ r :=
  (mul_nonneg nonneg (pow_lower_nonneg k)).trans near.lower

/-- Errors add up. -/
theorem trans
    (near : Near j q r)
    (nearer : Near k r v) :
    Near (k + j) q v := by
  constructor
  · calc v * (1 - roundoff) ^ (k + j)
        = v * (1 - roundoff) ^ k * (1 - roundoff) ^ j := by rw [pow_add, mul_assoc]
      _ ≤ r * (1 - roundoff) ^ j :=
        mul_le_mul_of_nonneg_right nearer.lower (pow_lower_nonneg j)
      _ ≤ q := near.lower
  · calc q ≤ r * (1 + roundoff) ^ j := near.upper
      _ ≤ v * (1 + roundoff) ^ k * (1 + roundoff) ^ j :=
        mul_le_mul_of_nonneg_right nearer.upper (zero_le_one.trans (one_le_pow_upper j))
      _ = v * (1 + roundoff) ^ (k + j) := by rw [pow_add, mul_assoc]

theorem mono
    (near : Near j r v)
    (nonneg : 0 ≤ v)
    (more : j ≤ k) :
    Near k r v := by
  constructor
  · refine le_trans (mul_le_mul_of_nonneg_left ?_ nonneg) near.lower
    exact pow_le_pow_of_le_one (sub_nonneg.mpr roundoff_le_one)
      (sub_le_self 1 roundoff_nonneg) more
  · refine le_trans near.upper (mul_le_mul_of_nonneg_left ?_ nonneg)
    exact pow_le_pow_right₀ (le_add_of_nonneg_right roundoff_nonneg) more

theorem add
    (first : Near k q v)
    (second : Near k r w) :
    Near k (q + r) (v + w) := by
  constructor
  · rw [add_mul]
    exact add_le_add first.lower second.lower
  · rw [add_mul]
    exact add_le_add first.upper second.upper

/-- Errors of factors add up too. -/
theorem mul
    (first : Near j q v)
    (second : Near k r w)
    (nonneg : 0 ≤ v)
    (nonneg' : 0 ≤ w) :
    Near (j + k) (q * r) (v * w) := by
  have above := first.nonneg nonneg
  constructor
  · rw [pow_add, mul_mul_mul_comm]
    exact mul_le_mul first.lower second.lower (mul_nonneg nonneg' (pow_lower_nonneg k)) above
  · rw [pow_add, mul_mul_mul_comm]
    exact mul_le_mul first.upper second.upper (second.nonneg nonneg') (above.trans first.upper)

theorem div
    (near : Near k r v)
    {divisor : ℝ}
    (pos : 0 < divisor) :
    Near k (r / divisor) (v / divisor) := by
  constructor
  · rw [div_mul_eq_mul_div]
    exact div_le_div_of_nonneg_right near.lower pos.le
  · rw [div_mul_eq_mul_div]
    exact div_le_div_of_nonneg_right near.upper pos.le

/-- An error of the divisor counts twice. -/
theorem quotient
    (first : Near k q v)
    (second : Near j r w)
    (nonneg : 0 ≤ v)
    (pos : 0 < w)
    (pos' : 0 < r) :
    Near (k + 2 * j) (q / r) (v / w) := by
  have small : 0 ≤ 1 - roundoff := sub_nonneg.mpr roundoff_le_one
  have large : 0 ≤ 1 + roundoff := add_nonneg zero_le_one roundoff_nonneg
  constructor
  · have shrinks : (1 - roundoff) ^ (2 * j) * (1 + roundoff) ^ j ≤ 1 := by
      rw [pow_mul, ← mul_pow]
      exact pow_le_one₀ (by positivity) (by norm_num [roundoff])
    rw [le_div_iff₀ pos']
    calc v / w * (1 - roundoff) ^ (k + 2 * j) * r
        ≤ v / w * (1 - roundoff) ^ (k + 2 * j) * (w * (1 + roundoff) ^ j) :=
          mul_le_mul_of_nonneg_left second.upper (by positivity)
      _ = v * (1 - roundoff) ^ k * ((1 - roundoff) ^ (2 * j) * (1 + roundoff) ^ j) := by
          rw [pow_add]
          field_simp
      _ ≤ v * (1 - roundoff) ^ k := mul_le_of_le_one_right (by positivity) shrinks
      _ ≤ q := first.lower
  · have grows : 1 ≤ (1 + roundoff) ^ (2 * j) * (1 - roundoff) ^ j := by
      rw [pow_mul, ← mul_pow]
      exact one_le_pow₀ (by norm_num [roundoff])
    rw [div_le_iff₀ pos']
    calc q ≤ v * (1 + roundoff) ^ k := first.upper
      _ ≤ v * (1 + roundoff) ^ k * ((1 + roundoff) ^ (2 * j) * (1 - roundoff) ^ j) :=
          le_mul_of_one_le_right (by positivity) grows
      _ = v / w * (1 + roundoff) ^ (k + 2 * j) * (w * (1 - roundoff) ^ j) := by
          rw [pow_add]
          field_simp
      _ ≤ v / w * (1 + roundoff) ^ (k + 2 * j) * r :=
          mul_le_mul_of_nonneg_left second.lower (by positivity)

theorem sqrt
    (near : Near k r v)
    (nonneg : 0 ≤ v) :
    Near k (√r) (√v) := by
  have low := pow_lower_nonneg k
  have high := zero_le_one.trans (one_le_pow_upper k)
  constructor
  · refine Real.le_sqrt_of_sq_le (le_trans ?_ near.lower)
    rw [mul_pow, Real.sq_sqrt nonneg]
    exact mul_le_mul_of_nonneg_left (pow_le_of_le_one low (pow_lower_le_one k) two_ne_zero) nonneg
  · refine Real.sqrt_le_iff.mpr ⟨mul_nonneg (Real.sqrt_nonneg v) high, near.upper.trans ?_⟩
    rw [mul_pow, Real.sq_sqrt nonneg]
    exact mul_le_mul_of_nonneg_left (le_self_pow₀ (one_le_pow_upper k) two_ne_zero) nonneg

/-- Numbers that are apart by more than their errors stay in order. -/
theorem lt
    (first : Near k q v)
    (second : Near k r w)
    (apart : v * (1 + roundoff) ^ k < w * (1 - roundoff) ^ k) :
    q < r :=
  first.upper.trans_lt (apart.trans_le second.lower)

end Near

/-! ## One rounding -/

section Rounded

variable {mantissa : Nat} {exponent : Int} {shift : Nat}

/-- The digits that are cut off and rounded, before they are made 53 again. -/
theorem shiftToTargetExponent_of_log2
    (digits : mantissa.log2 = 52 + shift)
    (least : -1074 ≤ exponent + shift)
    (accuracy : Accuracy) :
    shiftToTargetExponent Format.binary64 mantissa exponent accuracy =
      (ExtendedMantissa.ofMantissaAndAccuracy mantissa accuracy >>> shift, exponent + shift) := by
  have target : Format.binary64.targetExponent (totalExponent mantissa exponent) =
      exponent + shift := by
    simp only [Format.targetExponent, totalExponent, Format.mantissaBits, Format.minExponent]
    omega
  have amount : (exponent + shift - exponent).toNat = shift := by omega
  rw [UnpackedFloat.shiftToTargetExponent, target, shiftToExponent, amount]

/-- Rounded digits are 53, or one more and zeros. -/
theorem roundWithAccuracy_of_rounded
    (digits : mantissa.log2 = 52 + shift)
    (least : -1074 ≤ exponent + shift)
    (greatest : exponent + shift ≤ 970)
    (sign : Sign)
    (accuracy : Accuracy) :
    ∃ rounded place, ∃ isNormal : IsNormal rounded place,
      roundWithAccuracy Format.binary64 sign mantissa exponent accuracy =
        .finite sign rounded place isNormal.pos ∧
      ∃ whole : Nat, (rounded : ℝ) * 2 ^ place = whole * 2 ^ (exponent + shift) ∧
        mantissa / 2 ^ shift ≤ whole ∧ whole ≤ mantissa / 2 ^ shift + 1 := by
  have nonzero : mantissa ≠ 0 := by
    rintro rfl
    exact absurd digits (by rw [Nat.log2_zero]; omega)
  have bounds := (Nat.log2_eq_iff nonzero).mp digits
  have zeros := Nat.two_pow_pos shift
  have lower : 2 ^ 52 ≤ mantissa / 2 ^ shift := by
    rw [Nat.le_div_iff_mul_le zeros, ← Nat.pow_add]
    exact bounds.1
  have upper : mantissa / 2 ^ shift < 2 ^ 53 := by
    rw [Nat.div_lt_iff_lt_mul zeros, ← Nat.pow_add]
    exact bounds.2.trans_eq (congrArg (2 ^ ·) (by omega))
  rw [roundWithAccuracy, shiftToTargetExponent_of_log2 digits least]
  dsimp only
  have cut : (ExtendedMantissa.ofMantissaAndAccuracy mantissa accuracy >>> shift).mantissa =
      mantissa / 2 ^ shift := by
    rw [mantissa_shiftRight, mantissa_ofMantissaAndAccuracy]
  obtain ⟨atLeast, atMost⟩ := roundedMantissa_near
    (ExtendedMantissa.ofMantissaAndAccuracy mantissa accuracy >>> shift)
  rw [cut] at atLeast atMost
  generalize (ExtendedMantissa.ofMantissaAndAccuracy mantissa accuracy >>> shift).roundedMantissa =
    whole at atLeast atMost ⊢
  rcases Nat.lt_or_ge whole (2 ^ 53) with few | many
  · have isNormal : IsNormal whole (exponent + shift) :=
      ⟨lower.trans atLeast, few, least, by omega⟩
    have stays := isNormal.shiftToTargetExponent 0
    rw [Nat.pow_zero, Nat.mul_one, Int.natCast_zero, Int.sub_zero] at stays
    refine ⟨whole, exponent + shift, isNormal, ?_, whole, rfl, atLeast, atMost⟩
    rw [stays]
    exact dif_neg (Nat.ne_of_gt isNormal.pos)
  · obtain rfl : whole = 2 ^ 53 := by omega
    have isNormal : IsNormal (2 ^ 52) (exponent + shift + 1) :=
      ⟨le_refl _, by decide, by omega, by omega⟩
    have carried := isNormal.shiftToTargetExponent 1
    rw [Int.natCast_one, Int.add_sub_cancel] at carried
    refine ⟨2 ^ 52, exponent + shift + 1, isNormal, ?_, 2 ^ 53, ?_, atLeast, atMost⟩
    · rw [show (2 : Nat) ^ 53 = 2 ^ 52 * 2 ^ 1 from rfl, carried]
      rfl
    · rw [zpow_add_one₀ two_ne_zero]
      push_cast
      ring

end Rounded

/-- A number that is neither very large nor very small. -/
structure InRange (bits : Nat) (v : ℝ) : Prop where
  /-- It is not very small. -/
  lower : 2 ^ (-bits : Int) ≤ v
  /-- It is not very large. -/
  upper : v ≤ 2 ^ (bits : Int)

theorem InRange.pos
    {bits : Nat}
    {v : ℝ}
    (inRange : InRange bits v) :
    0 < v :=
  (zpow_pos two_pos _).trans_le inRange.lower

/-- Numbers of few digits, and fractions of as few, are far from the ends of the range. -/
theorem inRange_of_le
    (digits : Nat)
    {bits : Nat}
    {v : ℝ}
    (wide : digits ≤ bits)
    (lower : 1 / 2 ^ digits ≤ v)
    (upper : v ≤ 2 ^ digits) :
    InRange bits v := by
  constructor
  · refine le_trans ?_ lower
    rw [one_div, ← zpow_natCast, ← zpow_neg]
    exact zpow_le_zpow_right₀ one_le_two (by omega)
  · refine upper.trans ?_
    rw [← zpow_natCast]
    exact zpow_le_zpow_right₀ one_le_two (by omega)

/-- A number that is made no more than 40 powers of two greater or less. -/
theorem InRange.scale
    {bits : Nat}
    {v r : ℝ}
    (inRange : InRange bits v)
    (scale : InRange 40 r) :
    InRange (bits + 40) (v * r) := by
  constructor
  · calc (2 : ℝ) ^ (-(bits + 40 : Nat) : Int) = 2 ^ (-bits : Int) * 2 ^ (-(40 : Nat) : Int) := by
          rw [← zpow_add₀ two_ne_zero]
          congr 1
          omega
      _ ≤ v * r := mul_le_mul inRange.lower scale.lower (zpow_pos two_pos _).le inRange.pos.le
  · calc v * r ≤ 2 ^ (bits : Int) * 2 ^ ((40 : Nat) : Int) :=
          mul_le_mul inRange.upper scale.upper scale.pos.le (zpow_pos two_pos _).le
      _ = 2 ^ ((bits + 40 : Nat) : Int) := by
          rw [← zpow_add₀ two_ne_zero]
          congr 1

theorem InRange.mono
    {bits digits : Nat}
    {v : ℝ}
    (inRange : InRange digits v)
    (wider : digits ≤ bits) :
    InRange bits v :=
  ⟨(zpow_le_zpow_right₀ one_le_two (by omega)).trans inRange.lower,
    inRange.upper.trans (zpow_le_zpow_right₀ one_le_two (by omega))⟩

/-- Some roundings lose less than half of a number. -/
theorem Near.half_le_pow_lower
    {k : Nat}
    (few : k ≤ 64) :
    1 / 2 ≤ (1 - roundoff) ^ k := by
  have bernoulli := one_add_mul_le_pow (a := -roundoff) (by linarith [roundoff_le_one]) k
  have part : (k : ℝ) * roundoff ≤ 1 / 2 :=
    calc (k : ℝ) * roundoff ≤ 64 * roundoff :=
          mul_le_mul_of_nonneg_right (by exact_mod_cast few) roundoff_nonneg
      _ ≤ 1 / 2 := by norm_num [roundoff]
  rw [← sub_eq_add_neg] at bernoulli
  linarith

/-- What a number becomes by some roundings is in a range a little wider. -/
theorem Near.inRange
    {bits k : Nat}
    {r v : ℝ}
    (near : Near k r v)
    (few : k ≤ 64)
    (inRange : InRange bits v) :
    InRange (bits + 1) r := by
  have half := half_le_pow_lower few
  have twice : (1 + roundoff) ^ k ≤ 2 := by
    have product : (1 + roundoff) ^ k * (1 - roundoff) ^ k ≤ 1 := by
      rw [← mul_pow]
      refine pow_le_one₀ (mul_nonneg ?_ ?_) ?_ <;>
        nlinarith [roundoff_nonneg, roundoff_le_one]
    nlinarith [Near.one_le_pow_upper k]
  constructor
  · calc (2 : ℝ) ^ (-(bits + 1 : Nat) : Int) = 2 ^ (-bits : Int) * (1 / 2) := by
          rw [Nat.cast_succ, neg_add, zpow_add₀ two_ne_zero, zpow_neg_one, one_div]
      _ ≤ v * (1 - roundoff) ^ k :=
        mul_le_mul inRange.lower half (by norm_num) inRange.pos.le
      _ ≤ r := near.lower
  · calc r ≤ v * (1 + roundoff) ^ k := near.upper
      _ ≤ 2 ^ (bits : Int) * 2 :=
        mul_le_mul inRange.upper twice (zero_le_one.trans (Near.one_le_pow_upper k))
          (zpow_pos two_pos _).le
      _ = 2 ^ ((bits + 1 : Nat) : Int) := (zpow_add_one₀ two_ne_zero _).symm

/-- The number of digits of a number that begins with given ones. -/
theorem InRange.log2
    {mantissa : Nat}
    {exponent : Int}
    {v : ℝ}
    (inRange : InRange 500 v)
    (nonzero : mantissa ≠ 0)
    (lower : (mantissa : ℝ) * 2 ^ exponent ≤ v)
    (upper : v ≤ (mantissa + 1) * 2 ^ exponent) :
    -501 ≤ mantissa.log2 + exponent ∧ mantissa.log2 + exponent ≤ 500 := by
  have atLeast : (2 : ℝ) ^ (mantissa.log2 : Int) ≤ mantissa := by
    rw [zpow_natCast]
    exact_mod_cast Nat.log2_self_le nonzero
  have atMost : (mantissa : ℝ) + 1 ≤ 2 ^ (mantissa.log2 + 1 : Int) := by
    rw [← Nat.cast_succ, ← Nat.cast_succ, zpow_natCast]
    exact_mod_cast Nat.lt_log2_self (n := mantissa)
  have power := zpow_pos (two_pos (α := ℝ)) exponent
  constructor
  · have less : (2 : ℝ) ^ (-500 : Int) ≤ 2 ^ (mantissa.log2 + 1 + exponent : Int) :=
      calc (2 : ℝ) ^ (-500 : Int) ≤ (mantissa + 1) * 2 ^ exponent := inRange.lower.trans upper
        _ ≤ 2 ^ (mantissa.log2 + 1 : Int) * 2 ^ exponent :=
          mul_le_mul_of_nonneg_right atMost power.le
        _ = 2 ^ (mantissa.log2 + 1 + exponent : Int) := (zpow_add₀ two_ne_zero _ _).symm
    have ordered := (zpow_le_zpow_iff_right₀ one_lt_two).mp less
    omega
  · have less : (2 : ℝ) ^ (mantissa.log2 + exponent : Int) ≤ 2 ^ (500 : Int) :=
      calc (2 : ℝ) ^ (mantissa.log2 + exponent : Int)
          = 2 ^ (mantissa.log2 : Int) * 2 ^ exponent := zpow_add₀ two_ne_zero _ _
        _ ≤ mantissa * 2 ^ exponent := mul_le_mul_of_nonneg_right atLeast power.le
        _ ≤ 2 ^ (500 : Int) := lower.trans inRange.upper
    exact (zpow_le_zpow_iff_right₀ one_lt_two).mp less

/-- Rounded, a number of at least 53 digits of which the first are given is near it. -/
theorem roundWithAccuracy_near
    {mantissa : Nat}
    {exponent : Int}
    {v : ℝ}
    (large : 2 ^ 52 ≤ mantissa)
    (lower : (mantissa : ℝ) * 2 ^ exponent ≤ v)
    (upper : v ≤ (mantissa + 1) * 2 ^ exponent)
    (inRange : InRange 500 v)
    (sign : Sign)
    (accuracy : Accuracy) :
    ∃ rounded place, ∃ isNormal : IsNormal rounded place,
      roundWithAccuracy Format.binary64 sign mantissa exponent accuracy =
        .finite sign rounded place isNormal.pos ∧
      Near 1 ((rounded : ℝ) * 2 ^ place) v := by
  have nonzero : mantissa ≠ 0 := by omega
  have enough : 52 ≤ mantissa.log2 := (Nat.le_log2 nonzero).mpr large
  obtain ⟨shift, digits⟩ := Nat.exists_eq_add_of_le enough
  obtain ⟨least, greatest⟩ := inRange.log2 nonzero lower upper
  obtain ⟨rounded, place, isNormal, same, whole, value, atLeast, atMost⟩ :=
    roundWithAccuracy_of_rounded digits (show -1074 ≤ exponent + shift by omega) (by omega) sign
      accuracy
  refine ⟨rounded, place, isNormal, same, ?_⟩
  have power := zpow_pos (two_pos (α := ℝ)) exponent
  -- One unit of the last digit that stays is a small part of the digits.
  have unit : (2 : ℝ) ^ shift * 2 ^ 52 ≤ mantissa := by
    rw [mul_comm, ← pow_add, ← digits]
    exact_mod_cast Nat.log2_self_le nonzero
  have one : (2 : ℝ) ^ 52 ≤ mantissa := by exact_mod_cast large
  have below : (mantissa : ℝ) ≤ (whole + 1) * 2 ^ shift := by
    have cut : mantissa < (whole + 1) * 2 ^ shift :=
      (Nat.div_lt_iff_lt_mul (Nat.two_pow_pos shift)).mp (Nat.lt_succ_of_le atLeast)
    exact_mod_cast cut.le
  have above : (whole : ℝ) * 2 ^ shift ≤ mantissa + 2 ^ shift := by
    have cut : whole * 2 ^ shift ≤ mantissa + 2 ^ shift :=
      calc whole * 2 ^ shift ≤ (mantissa / 2 ^ shift + 1) * 2 ^ shift :=
            Nat.mul_le_mul_right _ atMost
        _ = mantissa / 2 ^ shift * 2 ^ shift + 2 ^ shift := by rw [Nat.add_mul, Nat.one_mul]
        _ ≤ mantissa + 2 ^ shift := Nat.add_le_add_right (Nat.div_mul_le_self _ _) _
    exact_mod_cast cut
  have scaled : (rounded : ℝ) * 2 ^ place = whole * 2 ^ shift * 2 ^ exponent := by
    rw [value, zpow_add₀ two_ne_zero, zpow_natCast, mul_assoc, mul_comm ((2 : ℝ) ^ exponent)]
  have half : roundoff = 2 / 2 ^ 52 := by norm_num [roundoff]
  rw [scaled]
  constructor
  · rw [pow_one]
    have less : ((mantissa : ℝ) + 1) * (1 - roundoff) ≤ whole * 2 ^ shift := by
      rw [half]
      linarith
    calc v * (1 - roundoff)
        ≤ (mantissa + 1) * 2 ^ exponent * (1 - roundoff) :=
          mul_le_mul_of_nonneg_right upper (sub_nonneg.mpr roundoff_le_one)
      _ = (mantissa + 1) * (1 - roundoff) * 2 ^ exponent := mul_right_comm _ _ _
      _ ≤ whole * 2 ^ shift * 2 ^ exponent := mul_le_mul_of_nonneg_right less power.le
  · rw [pow_one]
    have less : (whole : ℝ) * 2 ^ shift ≤ mantissa * (1 + roundoff) := by
      rw [half]
      linarith
    calc (whole : ℝ) * 2 ^ shift * 2 ^ exponent
        ≤ mantissa * (1 + roundoff) * 2 ^ exponent := mul_le_mul_of_nonneg_right less power.le
      _ = mantissa * 2 ^ exponent * (1 + roundoff) := mul_right_comm _ _ _
      _ ≤ v * (1 + roundoff) :=
        mul_le_mul_of_nonneg_right lower (add_nonneg zero_le_one roundoff_nonneg)

end Binary
end Darkroom
