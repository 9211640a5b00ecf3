import Darkroom.Proofs.Number.Whole

/-!
# Quarter turns in degrees

A double whose value is a multiple of ninety is reduced to one of the four quarter turns without an
error, however large it is: the remainder of a division by a full turn is exact, and so is the full
turn that is added to a negative one.
-/

namespace Darkroom
namespace Binary

/-- A double is finite and its value is this number. -/
inductive HasValue (x : Float) (v : ℝ) : Prop
  /-- The number that its digits make up. -/
  | finite (negative : Bool) (mantissa : Nat) (exponent : Int)
      (decoded : ofFloat x = .finite negative mantissa exponent)
      (value : (if negative then -1 else 1) * ((mantissa : ℝ) * 2 ^ exponent) = v)

/-! ## Whole numbers -/

theorem IsNormal.hasValue_double
    {mantissa : Nat}
    {exponent : Int}
    (isNormal : IsNormal mantissa exponent) :
    HasValue (isNormal.double .positive) ((mantissa : ℝ) * 2 ^ exponent) ∧
      HasValue (-isNormal.double .positive) (-((mantissa : ℝ) * 2 ^ exponent)) := by
  refine ⟨⟨_, _, _, isNormal.ofFloat_double .positive, ?_⟩,
    ⟨_, _, _, (congrArg ofFloat isNormal.neg_double).trans (isNormal.ofFloat_double .negative), ?_⟩⟩
  · simp [isNegative]
  · simp [isNegative]

/-- A whole number that a double can stand for is the value of its nearest double. -/
theorem hasValue_whole
    {n : Nat}
    (inRange : n.log2 < 1024)
    (isExact : IsExact n) :
    HasValue (Decimal.whole n) n ∧ HasValue (-Decimal.whole n) (-n) := by
  rcases Nat.eq_zero_or_pos n with rfl | pos
  · exact ⟨⟨false, 0, -1074, by decide, by simp⟩,
      ⟨true, 0, -1074, by decide, by simp⟩⟩
  rw [Decimal.whole_eq_ofScientific pos inRange]
  rcases Nat.lt_or_ge n (2 ^ 53) with small | large
  · have isNormal := isNormal_of_lt pos small
    have few : n.log2 ≤ 52 := Nat.lt_succ_iff.mp ((Nat.log2_lt (Nat.ne_of_gt pos)).mpr small)
    have value := value_of_log2_le few
    rw [ofScientific_of_lt pos small isNormal]
    rw [← value]
    exact isNormal.hasValue_double
  · obtain ⟨mantissa, exponent, isNormal, whole, rfl⟩ :=
      exists_isNormal_of_le large inRange isExact
    have value : ((mantissa * 2 ^ exponent.toNat : ℕ) : ℝ) = (mantissa : ℝ) * 2 ^ exponent := by
      rw [Nat.cast_mul, Nat.cast_pow, Nat.cast_ofNat, ← zpow_natCast, Int.toNat_of_nonneg whole]
    rw [ofScientific_of_le isNormal whole large, value]
    exact isNormal.hasValue_double

theorem hasValue_signedWhole
    {n : Int}
    (inRange : n.natAbs.log2 < 1024)
    (isExact : IsExact n.natAbs) :
    HasValue (Decimal.signedWhole n) n := by
  obtain ⟨positive, negative⟩ := hasValue_whole inRange isExact
  rw [Decimal.signedWhole]
  split
  · next below =>
    have magnitude : (n : ℝ) = -(n.natAbs : ℝ) := by
      rw [Nat.cast_natAbs, abs_of_neg below, Int.cast_neg, neg_neg]
    rwa [magnitude]
  · next above =>
    have magnitude : (n : ℝ) = (n.natAbs : ℝ) := by
      rw [Nat.cast_natAbs, abs_of_nonneg (not_lt.mp above)]
    rwa [magnitude]

/-! ## The remainder by a full turn -/

/-- So many degrees, from nothing to three quarter turns. -/
def quarters : Nat → Float
  | 0 => 0.0
  | 1 => 90.0
  | 2 => 180.0
  | _ => 270.0

theorem ofFloat_fullTurn : ofFloat 360.0 = .finite false (360 * 2 ^ 44) (-44) := by
  decide

/-- Only zero has no digits. -/
theorem exponent_of_zero
    {x : Float}
    {negative : Bool}
    {exponent : Int}
    (decoded : ofFloat x = .finite negative 0 exponent) :
    exponent = -1074 := by
  unfold ofFloat at decoded
  dsimp only at decoded
  split at decoded
  · split at decoded <;> cases decoded
  split at decoded
  · exact (Binary.finite.inj decoded).2.2.symm
  · have digits := (Binary.finite.inj decoded).2.1
    omega

section Scaled

variable {mantissa turns : Nat} {exponent : Int}
  (value : (mantissa : ℝ) * 2 ^ exponent = 90 * turns)

include value

/-- Both sides multiplied by a power of two are whole numbers. -/
theorem scaled_turns
    (shift : Nat)
    (whole : 0 ≤ exponent + shift) :
    mantissa * 2 ^ (exponent + shift).toNat = 90 * turns * 2 ^ shift := by
  have real : (mantissa : ℝ) * 2 ^ (exponent + shift).toNat = 90 * turns * 2 ^ shift := by
    rw [← zpow_natCast, Int.toNat_of_nonneg whole, zpow_add₀ two_ne_zero, ← mul_assoc, value,
      zpow_natCast]
  exact_mod_cast real

/-- The digits of a fraction of which so many bits are zero. -/
theorem mantissa_of_turns
    {shift : Nat}
    (fraction : exponent = -shift) :
    mantissa = 90 * turns * 2 ^ shift := by
  have digits := scaled_turns value shift (by omega)
  rwa [show exponent + (shift : Int) = 0 by omega, Int.toNat_zero, Nat.pow_zero,
    Nat.mul_one] at digits

/-- A quarter turn leaves no room for more zeros. -/
theorem exponent_of_turns
    (few : mantissa < 2 ^ 53)
    (positive : 0 < turns) :
    -46 ≤ exponent := by
  by_contra small
  have digits : mantissa = 90 * turns * 2 ^ (-exponent).toNat :=
    mantissa_of_turns value (by omega)
  have zeros : (2 : Nat) ^ 47 ≤ 2 ^ (-exponent).toNat :=
    Nat.pow_le_pow_right (by decide) (by omega)
  have more : 90 * 1 * 2 ^ 47 ≤ 90 * turns * 2 ^ (-exponent).toNat :=
    Nat.mul_le_mul (Nat.mul_le_mul_left 90 positive) zeros
  omega

end Scaled

/-- The remainder of a number of quarter turns by a full turn. -/
theorem remainder_fullTurn
    {x : Float}
    {negative : Bool}
    {mantissa : Nat}
    {exponent : Int}
    {turns : Nat}
    (decoded : ofFloat x = .finite negative mantissa exponent)
    (value : (mantissa : ℝ) * 2 ^ exponent = 90 * turns) :
    remainder x 360.0 = signed negative (quarters (turns % 4)) := by
  have few := mantissa_lt_of_ofFloat decoded
  rw [remainder, decoded, ofFloat_fullTurn]
  dsimp only
  rw [if_neg (by decide)]
  congr 1
  rcases Nat.eq_zero_or_pos turns with rfl | positive
  · have nothing : mantissa = 0 := by
      rw [Nat.cast_zero, mul_zero, mul_eq_zero, Nat.cast_eq_zero] at value
      exact value.resolve_right (zpow_ne_zero _ two_ne_zero)
    subst nothing
    rw [exponent_of_zero decoded]
    decide +kernel
  have large := exponent_of_turns value few positive
  rcases lt_or_ge exponent (-44) with fraction | whole
  · rcases show exponent = -45 ∨ exponent = -46 by omega with rfl | rfl
    · obtain rfl : mantissa = 90 * turns * 2 ^ 45 := mantissa_of_turns value rfl
      obtain rfl | rfl : turns = 1 ∨ turns = 2 := by omega
      · decide
      · decide +kernel
    · obtain rfl : mantissa = 90 * turns * 2 ^ 46 := mantissa_of_turns value rfl
      obtain rfl : turns = 1 := by omega
      decide +kernel
  · rw [min_eq_right whole]
    have dividend : mantissa * 2 ^ (exponent - -44).toNat = 90 * turns * 2 ^ 44 := by
      rw [sub_neg_eq_add]
      exact scaled_turns value 44 (by omega)
    have residue : 90 * turns * 2 ^ 44 % (360 * 2 ^ 44 * 2 ^ ((-44 : Int) - -44).toNat) =
        90 * (turns % 4) * 2 ^ 44 := by
      rw [sub_self, Int.toNat_zero, Nat.pow_zero, Nat.mul_one, Nat.mul_mod_mul_right,
        show 360 = 90 * 4 from rfl, Nat.mul_mod_mul_left]
    rw [dividend, residue]
    have less : turns % 4 < 4 := Nat.mod_lt _ (by decide)
    interval_cases turns % 4 <;> decide +kernel

/-- The remainder of a number of quarter turns, brought into the first full turn; a whole number of
full turns against the clock leaves a negative zero. -/
theorem positiveRemainder_fullTurn
    {x : Float}
    {turns : Int}
    (value : HasValue x (90 * turns)) :
    positiveRemainder x 360.0 = quarters (turns : ZMod 4).val ∨
      (turns : ZMod 4) = 0 ∧ positiveRemainder x 360.0 = -0.0 := by
  obtain ⟨negative, mantissa, exponent, decoded, value⟩ := value
  have nonneg : (0 : ℝ) ≤ mantissa * 2 ^ exponent := by positivity
  have magnitude : (mantissa : ℝ) * 2 ^ exponent = 90 * turns.natAbs := by
    have sizes := congrArg abs value
    rw [abs_mul, abs_of_nonneg nonneg, abs_mul, abs_of_pos (show (0 : ℝ) < 90 by norm_num)] at sizes
    rw [Nat.cast_natAbs, Int.cast_abs, ← sizes]
    cases negative <;> simp
  have known := remainder_fullTurn decoded magnitude
  have less : turns.natAbs % 4 < 4 := Nat.mod_lt _ (by decide)
  rw [positiveRemainder, known]
  cases negative with
  | false =>
      have forward : turns = turns.natAbs := by
        have above : (0 : ℝ) ≤ turns := by simp at value; linarith
        have above : 0 ≤ turns := by exact_mod_cast above
        omega
      have same : (turns : ZMod 4).val = turns.natAbs % 4 := by
        conv_lhs => rw [forward, Int.cast_natCast, ZMod.val_natCast]
      refine .inl ?_
      rw [same]
      interval_cases turns.natAbs % 4 <;> decide
  | true =>
      have backward : turns = -turns.natAbs := by
        have below : (turns : ℝ) ≤ 0 := by simp at value; linarith
        have below : turns ≤ 0 := by exact_mod_cast below
        omega
      have opposite : (turns : ZMod 4) = -((turns.natAbs % 4 : ℕ) : ZMod 4) := by
        conv_lhs => rw [backward, Int.cast_neg, Int.cast_natCast]
        rw [ZMod.natCast_mod]
      rw [opposite]
      interval_cases turns.natAbs % 4 <;> decide

end Binary
end Darkroom
