import Darkroom.Proofs.Number.Approximation

/-!
# Nearest whole numbers

Whole numbers of few digits are calculated with exactly.  A double that stands for a real number is
rounded to the whole number that is nearest to the real one, unless that is so close to the middle
of two whole numbers that the roundings before reach across.  Then it is one of the two.
-/

namespace Darkroom
namespace Binary

open Float.Model (Format UnpackedFloat)
open Float.Model.UnpackedFloat hiding round normalize

variable {k : Nat} {x y : Float} {v w : ℝ}

/-- A double that stands for a number is finite, without a sign, and near to it. -/
theorem IsAbout.exists_finite
    (about : IsAbout k .positive x v) :
    ∃ mantissa exponent, ofFloat x = .finite false mantissa exponent ∧
      Near k ((mantissa : ℝ) * 2 ^ exponent) v := by
  rw [ofFloat_eq_ofUnpacked]
  unfold IsAbout at about
  generalize x.toModel.unpack = u at about
  cases about with
  | zero =>
      refine ⟨0, -1074, rfl, ?_⟩
      rw [Nat.cast_zero, zero_mul]
      exact ⟨by rw [zero_mul], by rw [zero_mul]⟩
  | finite isNormal pos near => exact ⟨_, _, rfl, near⟩

theorem IsAbout.nonneg
    (about : IsAbout k .positive x v) :
    0 ≤ v := by
  unfold IsAbout at about
  generalize x.toModel.unpack = u at about
  cases about with
  | zero => exact le_rfl
  | finite isNormal pos near => exact pos.le

/-- The double of a positive whole number of at most 53 digits. -/
theorem ofNat_eq_double
    {n : Nat}
    (pos : 0 < n)
    (less : n < 2 ^ 53) :
    Float.ofNat n = (isNormal_of_lt pos less).double .positive :=
  ofScientific_of_lt pos less _

/-- A double of full precision is what its digits with zeros behind them are rounded to. -/
theorem IsNormal.round
    {mantissa : Nat}
    {exponent : Int}
    (isNormal : IsNormal mantissa exponent)
    (shift : Nat) :
    UnpackedFloat.round Format.binary64 .positive (mantissa * 2 ^ shift) (exponent - shift) =
      .finite .positive mantissa exponent isNormal.pos := by
  have amount : (exponent - shift - exponent).toNat = 0 := by omega
  simp only [UnpackedFloat.round, isNormal.targetExponent, decreaseExponent, amount,
    Nat.shiftLeft_zero, Int.natCast_zero, Int.sub_zero, isNormal.roundWithAccuracy]

/-- A whole number with 52 zeros behind its digits, as it is brought to the exponent of one. -/
theorem scaled_digits
    {n : Nat}
    (few : n.log2 ≤ 52) :
    n * 2 ^ (52 - n.log2) * 2 ^ n.log2 = n * 2 ^ 52 := by
  rw [Nat.mul_assoc, ← Nat.pow_add, Nat.sub_add_cancel few]

/-- One less than a whole number of at most 53 digits is exact. -/
theorem ofNat_sub_one
    {n : Nat}
    (some : 1 < n)
    (less : n < 2 ^ 53) :
    Float.ofNat n - Float.ofNat 1 = Float.ofNat (n - 1) := by
  have few : n.log2 ≤ 52 := log2_le_of_lt less
  have few' : (n - 1).log2 ≤ 52 := log2_le_of_lt (by omega)
  have isNormal := isNormal_of_lt (show 0 < n by omega) less
  have isNormal' := isNormal_of_lt (show 0 < n - 1 by omega) (by omega)
  have one : IsNormal (2 ^ 52) (-52) := ⟨by decide, by decide, by decide, by decide⟩
  have rounded := isNormal'.round (n - 1).log2
  have place : min ((n.log2 : Int) - 52) (-52) = -52 := by omega
  have shift : ((n.log2 : Int) - 52 - -52).toNat = n.log2 := by omega
  have digits : (n * 2 ^ 52 : Nat) - (2 ^ 52 : Nat) = (((n - 1) * 2 ^ 52 : Nat) : Int) := by
    rw [Nat.sub_mul]
    omega
  have positive : 0 < (((n - 1) * 2 ^ 52 : Nat) : Int) := by omega
  have zeros : ((n - 1).log2 : Int) - 52 - (n - 1).log2 = -52 := by omega
  rw [scaled_digits few', zeros] at rounded
  rw [ofNat_eq_double (by omega) less, ofNat_eq_double (by omega) (show n - 1 < 2 ^ 53 by omega),
    show Float.ofNat 1 = one.double .positive from ofNat_eq_double Nat.one_pos (by decide)]
  change (⟨Float.Model.pack (UnpackedFloat.sub Format.binary64
    (isNormal.double .positive).toModel.unpack (one.double .positive).toModel.unpack)⟩ : Float) = _
  rw [isNormal.unpack_double, one.unpack_double]
  simp only [UnpackedFloat.sub, place, decreaseExponent, shift, Nat.shiftLeft_eq, scaled_digits few,
    Sign.apply, Int.sub_self, Int.toNat_zero, Nat.pow_zero, Nat.mul_one, digits,
    UnpackedFloat.normalize, Int.compare_eq_gt.mpr positive, Int.toNat_natCast, rounded]
  rfl

section Whole

variable {m n : Nat} (m_pos : 0 < m) (n_pos : 0 < n)

include m_pos n_pos

theorem log2_mul_bounds :
    m.log2 + n.log2 ≤ (m * n).log2 ∧ (m * n).log2 ≤ m.log2 + n.log2 + 1 := by
  have nonzero : m * n ≠ 0 := Nat.ne_of_gt (Nat.mul_pos m_pos n_pos)
  constructor
  · rw [Nat.le_log2 nonzero, Nat.pow_add]
    exact Nat.mul_le_mul (Nat.log2_self_le m_pos.ne') (Nat.log2_self_le n_pos.ne')
  · have less : m * n < 2 ^ (m.log2 + n.log2 + 2) :=
      calc m * n < 2 ^ (m.log2 + 1) * 2 ^ (n.log2 + 1) :=
            Nat.mul_lt_mul'' Nat.lt_log2_self Nat.lt_log2_self
        _ = 2 ^ (m.log2 + n.log2 + 2) := by rw [← Nat.pow_add]; congr 1; omega
    exact log2_le_of_lt less

variable (less : m * n < 2 ^ 53)

include less

/-- The product of whole numbers is exact if it has 53 digits at most. -/
theorem ofNat_mul_ofNat :
    Float.ofNat m * Float.ofNat n = Float.ofNat (m * n) := by
  have m_less : m < 2 ^ 53 := (Nat.le_mul_of_pos_right m n_pos).trans_lt less
  have n_less : n < 2 ^ 53 := (Nat.le_mul_of_pos_left n m_pos).trans_lt less
  have isNormal := isNormal_of_lt m_pos m_less
  have isNormal' := isNormal_of_lt n_pos n_less
  have product := isNormal_of_lt (Nat.mul_pos m_pos n_pos) less
  have m_few : m.log2 ≤ 52 := log2_le_of_lt m_less
  have n_few : n.log2 ≤ 52 := log2_le_of_lt n_less
  have few : (m * n).log2 ≤ 52 := log2_le_of_lt less
  have bounds := log2_mul_bounds m_pos n_pos
  obtain ⟨shift, zeros⟩ : ∃ shift, 52 + (m * n).log2 = m.log2 + n.log2 + shift :=
    Nat.exists_eq_add_of_le (by omega)
  have digits : m * 2 ^ (52 - m.log2) * (n * 2 ^ (52 - n.log2)) =
      m * n * 2 ^ (52 - (m * n).log2) * 2 ^ shift := by
    rw [Nat.mul_mul_mul_comm, Nat.mul_assoc (m * n), ← Nat.pow_add, ← Nat.pow_add]
    congr 2
    omega
  have place : (m.log2 : Int) - 52 + (n.log2 - 52) = (m * n).log2 - 52 - shift := by omega
  rw [ofNat_eq_double m_pos m_less, ofNat_eq_double n_pos n_less,
    ofNat_eq_double (Nat.mul_pos m_pos n_pos) less]
  change (⟨Float.Model.pack (mul Format.binary64 (isNormal.double .positive).toModel.unpack
    (isNormal'.double .positive).toModel.unpack)⟩ : Float) = _
  rw [isNormal.unpack_double, isNormal'.unpack_double, mul_finite_positive, digits, place,
    product.roundWithAccuracy]
  rfl

/-- A product of whole numbers is exact when it is divided again. -/
theorem ofNat_mul_div_ofNat :
    Float.ofNat (m * n) / Float.ofNat n = Float.ofNat m := by
  have m_less : m < 2 ^ 53 := (Nat.le_mul_of_pos_right m n_pos).trans_lt less
  have n_less : n < 2 ^ 53 := (Nat.le_mul_of_pos_left n m_pos).trans_lt less
  have isNormal := isNormal_of_lt m_pos m_less
  have isNormal' := isNormal_of_lt n_pos n_less
  have product := isNormal_of_lt (Nat.mul_pos m_pos n_pos) less
  have m_few : m.log2 ≤ 52 := log2_le_of_lt m_less
  have n_few : n.log2 ≤ 52 := log2_le_of_lt n_less
  have few : (m * n).log2 ≤ 52 := log2_le_of_lt less
  have bounds := log2_mul_bounds m_pos n_pos
  obtain ⟨shift, zeros⟩ : ∃ shift, m.log2 + n.log2 + 1 = (m * n).log2 + shift :=
    Nat.exists_eq_add_of_le bounds.2
  have digits : m * n * 2 ^ (52 - (m * n).log2) * 2 ^ 53 =
      m * 2 ^ (52 - m.log2) * 2 ^ shift * (n * 2 ^ (52 - n.log2)) := by
    rw [Nat.mul_assoc (m * n), ← Nat.pow_add, Nat.mul_assoc m (2 ^ (52 - m.log2)), ← Nat.pow_add,
      Nat.mul_mul_mul_comm, ← Nat.pow_add]
    congr 2
    omega
  have place : ((m * n).log2 : Int) - 52 - (n.log2 - 52) - 53 = m.log2 - 52 - shift := by omega
  rw [ofNat_eq_double m_pos m_less, ofNat_eq_double n_pos n_less,
    ofNat_eq_double (Nat.mul_pos m_pos n_pos) less]
  change (⟨Float.Model.pack (div Format.binary64 (product.double .positive).toModel.unpack
    (isNormal'.double .positive).toModel.unpack)⟩ : Float) = _
  rw [product.unpack_double, isNormal'.unpack_double, UnpackedFloat.div,
    divCore_of_normal product isNormal' (by omega), digits, Nat.mul_div_cancel _ isNormal'.pos,
    Nat.mul_mod_left, place]
  change (⟨Float.Model.pack (roundWithAccuracy Format.binary64 .positive _ _ .exact)⟩ : Float) = _
  rw [isNormal.roundWithAccuracy]
  rfl

end Whole

/-- A whole number of at most 53 digits is exact. -/
theorem isAbout_ofNat
    {n : Nat}
    (less : n < 2 ^ 53) :
    IsAbout 0 .positive (Float.ofNat n) n := by
  rcases Nat.eq_zero_or_pos n with rfl | pos
  · rw [Nat.cast_zero]
    exact Stands.zero
  · have isNormal := isNormal_of_lt pos less
    have value := value_of_log2_le (log2_le_of_lt less)
    rw [IsAbout, ofNat_eq_double pos less, isNormal.unpack_double]
    exact .finite isNormal (Nat.cast_pos.mpr pos) (value.symm ▸ Near.refl _)

theorem IsAbout.mono
    {j : Nat}
    (about : IsAbout j .positive x v)
    (more : j ≤ k) :
    IsAbout k .positive x v :=
  Stands.mono about more

/-- A whole number that is not very large is rounded at most once. -/
theorem isAbout_ofScientific
    {n : Nat}
    (less : n < 2 ^ 250) :
    IsAbout 1 .positive (Float.ofScientific n false 0) n := by
  rcases Nat.lt_or_ge n (2 ^ 53) with few | many
  · exact (isAbout_ofNat few).mono (Nat.zero_le 1)
  · have value : ((n * 2 ^ 53 : Nat) : ℝ) * 2 ^ (-53 : Int) = n := by
      rw [Nat.cast_mul, mul_assoc]
      norm_num
    have inRange : InRange 500 (n : ℝ) := by
      refine inRange_of_le 250 (by decide) ?_ (by exact_mod_cast less.le)
      have some : (1 : ℝ) ≤ n := by exact_mod_cast (show 1 ≤ n by omega)
      exact le_trans (by norm_num) some
    have upper := value.symm.trans_le (mul_le_succ_mul (n * 2 ^ 53) (-53))
    have large : 2 ^ 52 ≤ n * 2 ^ 53 := by omega
    rw [ofScientific_of_large many]
    exact (stands_roundWithAccuracy large value.le upper inRange .positive .exact).pack

theorem IsAbout.mul
    {j : Nat}
    (first : IsAbout j .positive x v)
    (second : IsAbout k .positive y w)
    (few : j + k ≤ 64)
    (inRange : 0 < v * w → InRange 499 (v * w)) :
    IsAbout (j + k + 1) .positive (x * y) (v * w) :=
  (Stands.mul first second few inRange).pack

/-- The quotient by a whole number. -/
theorem IsAbout.div_ofNat
    {n : Nat}
    (about : IsAbout k .positive x v)
    (positive : 0 < n)
    (less : n < 2 ^ 53)
    (few : k ≤ 64)
    (inRange : 0 < v → InRange 499 (v / n)) :
    IsAbout (k + 1) .positive (x / Float.ofNat n) (v / n) := by
  have isNormal := isNormal_of_lt positive less
  have value := value_of_log2_le (log2_le_of_lt less)
  rw [ofNat_eq_double positive less]
  exact about.div isNormal (isNormal.unpack_double .positive) value few inRange

theorem IsAbout.quotient
    {j : Nat}
    {sign : Sign}
    (first : IsAbout k sign x v)
    (second : IsAbout j .positive y w)
    (pos : 0 < w)
    (few : k + 2 * j ≤ 64)
    (inRange : 0 < v → InRange 498 (v / w)) :
    IsAbout (k + 2 * j + 1) sign (x / y) (v / w) :=
  (Stands.quotient first second pos few inRange).pack

theorem IsAbout.sqrt
    (about : IsAbout k .positive x v)
    (few : k ≤ 64)
    (inRange : 0 < v → InRange 499 (√v)) :
    IsAbout (k + 1) .positive x.sqrt (√v) :=
  (Stands.sqrt about few inRange).pack

/-! ## Rounding to whole numbers -/

/-- The nearest whole number is the whole part after a half is added. -/
theorem nearestWhole_eq_floor
    (mantissa : Nat)
    (exponent : Int) :
    nearestWhole mantissa exponent = ⌊(mantissa : ℝ) * 2 ^ exponent + 1 / 2⌋₊ := by
  unfold nearestWhole
  split
  · next whole =>
    have value : (mantissa : ℝ) * 2 ^ exponent = (mantissa * 2 ^ exponent.toNat : Nat) := by
      rw [Nat.cast_mul, Nat.cast_pow, Nat.cast_two, ← zpow_natCast, Int.toNat_of_nonneg whole]
    symm
    rw [value, Nat.floor_eq_iff (by positivity)]
    constructor <;> linarith
  · have place : exponent = -((-exponent).toNat : Int) := by omega
    generalize (-exponent).toNat = shift at place
    have value : (mantissa : ℝ) * 2 ^ exponent + 1 / 2 =
        ((2 * mantissa + 2 ^ shift : Nat) : ℝ) / (2 ^ (shift + 1) : Nat) := by
      rw [place, zpow_neg, zpow_natCast]
      push_cast
      field_simp
      ring
    rw [value, Nat.floor_div_eq_div]

theorem nearestUInt32_of_finite
    {mantissa : Nat}
    {exponent : Int}
    (decoded : ofFloat x = .finite false mantissa exponent) :
    nearestUInt32 x = UInt32.ofNat (min (nearestWhole mantissa exponent) (2 ^ 32 - 1)) := by
  rw [nearestUInt32, decoded, toIntBy]
  congr 1
  simp only [Bool.false_eq_true, if_false]
  omega

/-- A whole number is nearest to a real one, or another one is hardly nearer. -/
structure IsNearest (n : Nat) (v : ℝ) : Prop where
  /-- It is hardly more than a half below. -/
  lower : v ≤ n + 1 / 2 + 1 / 2 ^ 12
  /-- It is hardly more than a half above. -/
  upper : n ≤ v + 1 / 2 + 1 / 2 ^ 12

/-- Eight roundings change a number by a small part of it. -/
theorem Near.abs_sub_le_part
    {r : ℝ}
    (near : Near k r v)
    (nonneg : 0 ≤ v)
    (few : k ≤ 8) :
    |r - v| ≤ v / 2 ^ 45 := by
  obtain ⟨lower, upper⟩ := near.mono nonneg few
  have more : (1 + roundoff) ^ 8 ≤ 1 + 1 / 2 ^ 45 := by norm_num [roundoff]
  have fewer : 1 - 1 / 2 ^ 45 ≤ (1 - roundoff) ^ 8 := by norm_num [roundoff]
  have above := mul_le_mul_of_nonneg_left more nonneg
  have below := mul_le_mul_of_nonneg_left fewer nonneg
  rw [abs_le]
  constructor <;> linarith

/-- Eight roundings hardly change a number that is not large. -/
theorem Near.abs_sub_le
    {r : ℝ}
    (near : Near k r v)
    (nonneg : 0 ≤ v)
    (few : k ≤ 8)
    (small : v ≤ 2 ^ 33) :
    |r - v| ≤ 1 / 2 ^ 12 :=
  (near.abs_sub_le_part nonneg few).trans (by linarith)

/-- What a double that stands for a number that is not large is rounded to, as a byte, as a word and
as a double, is hardly more than a half away from the number. -/
theorem IsAbout.exists_rounded
    (about : IsAbout k .positive x v)
    (few : k ≤ 8)
    (small : v ≤ 2 ^ 33) :
    ∃ n : Nat, |(n : ℝ) - v| ≤ 1 / 2 + v / 2 ^ 45 ∧ nearestByte x = UInt8.ofNat (min n 255) ∧
      nearestUInt32 x = UInt32.ofNat (min n (2 ^ 32 - 1)) ∧ nearestFloat x = Float.ofNat n := by
  obtain ⟨mantissa, exponent, decoded, near⟩ := about.exists_finite
  have part := abs_le.mp (near.abs_sub_le_part about.nonneg few)
  have close := abs_le.mp (near.abs_sub_le about.nonneg few small)
  have rounded := nearestWhole_eq_floor mantissa exponent
  have atMost : (nearestWhole mantissa exponent : ℝ) ≤ mantissa * 2 ^ exponent + 1 / 2 :=
    rounded ▸ Nat.floor_le (by positivity)
  have atLeast : (mantissa : ℝ) * 2 ^ exponent + 1 / 2 < nearestWhole mantissa exponent + 1 :=
    rounded ▸ Nat.lt_floor_add_one _
  have fraction : exponent < 0 := by
    by_contra whole
    have large := (le_mantissa_of_ofFloat decoded).resolve_right (by omega)
    have more : (2 : ℝ) ^ 52 * 1 ≤ mantissa * 2 ^ exponent :=
      mul_le_mul (by exact_mod_cast large) (one_le_zpow₀ one_le_two (not_lt.mp whole))
        zero_le_one (Nat.cast_nonneg mantissa)
    linarith
  refine ⟨nearestWhole mantissa exponent, ?_, ?_, ?_, ?_⟩
  · rw [abs_le]
    constructor <;> linarith
  · rw [nearestByte, decoded, toIntBy]
    congr 1
    simp only [Bool.false_eq_true, if_false]
    omega
  · exact nearestUInt32_of_finite decoded
  · rw [nearestFloat, decoded]
    exact if_neg (not_le.mpr fraction)

/-- What a double that stands for a number that is not large is rounded to, as a byte, as a word and
as a double, is nearest to the number. -/
theorem IsAbout.exists_isNearest
    (about : IsAbout k .positive x v)
    (few : k ≤ 8)
    (small : v ≤ 2 ^ 33) :
    ∃ n, IsNearest n v ∧ nearestByte x = UInt8.ofNat (min n 255) ∧
      nearestUInt32 x = UInt32.ofNat (min n (2 ^ 32 - 1)) ∧ nearestFloat x = Float.ofNat n := by
  obtain ⟨n, close, forms⟩ := about.exists_rounded few small
  obtain ⟨lower, upper⟩ := abs_le.mp close
  exact ⟨n, ⟨by linarith, by linarith⟩, forms⟩

/-- What a double that stands for a large number is rounded to as a word. -/
theorem IsAbout.nearestUInt32_of_large
    (about : IsAbout k .positive x v)
    (few : k ≤ 64)
    (large : 2 ^ 33 ≤ v) :
    nearestUInt32 x = UInt32.ofNat (2 ^ 32 - 1) := by
  obtain ⟨mantissa, exponent, decoded, near⟩ := about.exists_finite
  have half : 1 / 2 ≤ (1 - roundoff) ^ k := Near.half_le_pow_lower few
  have more : (2 : ℝ) ^ 32 ≤ mantissa * 2 ^ exponent :=
    calc (2 : ℝ) ^ 32 = 2 ^ 33 * (1 / 2) := by norm_num
      _ ≤ v * (1 - roundoff) ^ k := mul_le_mul large half (by norm_num) about.nonneg
      _ ≤ mantissa * 2 ^ exponent := near.lower
  have whole : 2 ^ 32 ≤ nearestWhole mantissa exponent := by
    rw [nearestWhole_eq_floor]
    refine Nat.le_floor ?_
    push_cast
    linarith
  rw [nearestUInt32_of_finite decoded, min_eq_right (by omega)]

/-- A whole number that is hardly farther away than any other is not above one that is. -/
theorem IsNearest.le
    {n m : Nat}
    (nearest : IsNearest n v)
    (below : v + 1 / 2 ^ 12 < m + 1 / 2) :
    n ≤ m := by
  have upper := nearest.upper
  have less : (n : ℝ) < m + 1 := by linarith
  exact Nat.lt_succ_iff.mp (by exact_mod_cast less)

theorem IsNearest.ge
    {n m : Nat}
    (nearest : IsNearest n v)
    (above : m - 1 / 2 + 1 / 2 ^ 12 < v) :
    m ≤ n := by
  have lower := nearest.lower
  have less : (m : ℝ) < n + 1 := by linarith
  exact Nat.lt_succ_iff.mp (by exact_mod_cast less)

/-- Numbers that are apart by more than their roundings keep their order. -/
theorem IsNearest.mono
    {m n : Nat}
    {v w : ℝ}
    (nearest : IsNearest m v)
    (nearest' : IsNearest n w)
    (apart : v + 1 / 2 ^ 11 < w) :
    m ≤ n := by
  have upper := nearest.upper
  have lower := nearest'.lower
  have less : (m : ℝ) < n + 1 := by linarith
  exact Nat.lt_succ_iff.mp (by exact_mod_cast less)

end Binary
end Darkroom
