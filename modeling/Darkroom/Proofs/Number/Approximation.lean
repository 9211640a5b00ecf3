import Darkroom.Proofs.Number.Rounding

/-!
# Doubles that stand for numbers

A double stands for a number when it is near to it up to some roundings.  The sum, quotient, square
and root of doubles stand for those of the numbers, up to one rounding more, as long as nothing is
very large or very small; zero is exact throughout.  Numbers that are apart by more than their
roundings are in the order of their doubles.
-/

namespace Darkroom
namespace Binary

open Float.Model (Format UnpackedFloat totalExponent)
open Float.Model.UnpackedFloat hiding round normalize

/-- Zero without a sign stands for zero.  A double of full precision stands for a positive number
that it is near to when its sign is left aside. -/
inductive Stands (roundings : Nat) (sign : Sign) : UnpackedFloat → ℝ → Prop where
  /-- Nothing is lost of zero. -/
  | zero : Stands roundings sign (.zero .positive) 0
  /-- A double that is not zero. -/
  | finite
      {mantissa : Nat}
      {exponent : Int}
      {v : ℝ}
      (isNormal : IsNormal mantissa exponent)
      (pos : 0 < v)
      (near : Near roundings (mantissa * 2 ^ exponent) v) :
      Stands roundings sign (.finite sign mantissa exponent isNormal.pos) v

/-- What a double stands for up to some roundings. -/
def IsAbout (roundings : Nat) (sign : Sign) (x : Float) (v : ℝ) : Prop :=
  Stands roundings sign x.toModel.unpack v

theorem Stands.pack
    {roundings : Nat}
    {sign : Sign}
    {u : UnpackedFloat}
    {v : ℝ}
    (stands : Stands roundings sign u v) :
    IsAbout roundings sign ⟨Float.Model.pack u⟩ v := by
  cases stands with
  | zero => exact .zero
  | finite isNormal pos near =>
      have same := isNormal.unpack_pack sign
      change Stands roundings sign (unpack Format.binary64 (UnpackedFloat.pack Format.binary64 _)) v
      rw [same]
      exact .finite isNormal pos near

/-- A number that is rounded once. -/
theorem stands_roundWithAccuracy
    {mantissa : Nat}
    {exponent : Int}
    {v : ℝ}
    (large : 2 ^ 52 ≤ mantissa)
    (lower : (mantissa : ℝ) * 2 ^ exponent ≤ v)
    (upper : v ≤ (mantissa + 1) * 2 ^ exponent)
    (inRange : InRange 500 v)
    (sign : Sign)
    (accuracy : Accuracy) :
    Stands 1 sign (roundWithAccuracy Format.binary64 sign mantissa exponent accuracy) v := by
  obtain ⟨rounded, place, isNormal, same, near⟩ :=
    roundWithAccuracy_near large lower upper inRange sign accuracy
  rw [same]
  exact .finite isNormal inRange.pos near

/-- Digits do not reach their next number. -/
theorem mul_le_succ_mul
    (mantissa : Nat)
    (exponent : Int) :
    (mantissa : ℝ) * 2 ^ exponent ≤ (mantissa + 1) * 2 ^ exponent :=
  mul_le_mul_of_nonneg_right (le_add_of_nonneg_right zero_le_one) (zpow_pos two_pos exponent).le

/-- Digits with zeros behind them make the same number with a smaller exponent. -/
theorem decreaseExponent_value
    (mantissa : Nat)
    (exponent least : Int) :
    ((decreaseExponent mantissa exponent least).1 : ℝ) *
        2 ^ (decreaseExponent mantissa exponent least).2 =
      mantissa * 2 ^ exponent := by
  simp only [decreaseExponent]
  rw [Nat.shiftLeft_eq, Nat.cast_mul, Nat.cast_pow, Nat.cast_two, zpow_sub₀ two_ne_zero,
    zpow_natCast, mul_assoc, mul_div_cancel₀ _ (pow_ne_zero _ two_ne_zero)]

theorem decreaseExponent_of_le
    (mantissa : Nat)
    {exponent least : Int}
    (smaller : least ≤ exponent) :
    (decreaseExponent mantissa exponent least).2 = least := by
  simp only [decreaseExponent]
  omega

/-- A number with few digits is rounded once: first zeros are put behind them. -/
theorem stands_round
    {mantissa : Nat}
    {exponent : Int}
    (inRange : InRange 500 (mantissa * 2 ^ exponent))
    (sign : Sign) :
    Stands 1 sign (UnpackedFloat.round Format.binary64 sign mantissa exponent)
      (mantissa * 2 ^ exponent) := by
  have nonzero : mantissa ≠ 0 := by
    rintro rfl
    exact absurd inRange.pos (by rw [Nat.cast_zero, zero_mul]; exact lt_irrefl 0)
  obtain ⟨least, greatest⟩ := inRange.log2 nonzero le_rfl (mul_le_succ_mul mantissa exponent)
  have target : Format.binary64.targetExponent (totalExponent mantissa exponent) =
      exponent + mantissa.log2 - 52 := by
    simp only [Format.targetExponent, totalExponent, Format.mantissaBits, Format.minExponent]
    omega
  have amount : (exponent - (exponent + mantissa.log2 - 52)).toNat = 52 - mantissa.log2 := by
    omega
  have large : 2 ^ 52 ≤ (decreaseExponent mantissa exponent (exponent + mantissa.log2 - 52)).1 := by
    simp only [decreaseExponent, amount, Nat.shiftLeft_eq]
    calc 2 ^ 52 ≤ 2 ^ (mantissa.log2 + (52 - mantissa.log2)) :=
          Nat.pow_le_pow_right two_pos (by omega)
      _ = 2 ^ mantissa.log2 * 2 ^ (52 - mantissa.log2) := Nat.pow_add _ _ _
      _ ≤ mantissa * 2 ^ (52 - mantissa.log2) :=
        Nat.mul_le_mul_right _ (Nat.log2_self_le nonzero)
  have value := decreaseExponent_value mantissa exponent (exponent + mantissa.log2 - 52)
  have upper := value.symm.trans_le (mul_le_succ_mul _ _)
  simp only [UnpackedFloat.round, target]
  exact stands_roundWithAccuracy large value.le upper inRange sign .exact

/-- A whole number times a power of two is rounded once; zero stays zero. -/
theorem stands_normalize
    {digits : Int}
    (exponent : Int)
    (inRange : digits ≠ 0 → InRange 500 ((digits.natAbs : ℝ) * 2 ^ exponent)) :
    Stands 1 (if digits < 0 then .negative else .positive)
      (UnpackedFloat.normalize Format.binary64 digits exponent .positive)
      (digits.natAbs * 2 ^ exponent) := by
  rcases lt_trichotomy digits 0 with negative | rfl | positive
  · have amount : (-digits).toNat = digits.natAbs := by omega
    rw [if_pos negative]
    simp only [UnpackedFloat.normalize, Int.compare_eq_lt.mpr negative, amount]
    exact stands_round (inRange negative.ne) .negative
  · rw [Int.natAbs_zero, Nat.cast_zero, zero_mul]
    exact .zero
  · have amount : digits.toNat = digits.natAbs := by omega
    rw [if_neg positive.not_gt]
    simp only [UnpackedFloat.normalize, Int.compare_eq_gt.mpr positive, amount]
    exact stands_round (inRange positive.ne') .positive

/-- A whole number of at most 53 digits is exact. -/
theorem stands_ofNat
    {n : Nat}
    (less : n < 2 ^ 53) :
    Stands 0 .positive (UnpackedFloat.ofNat Format.binary64 n) n := by
  rcases Nat.eq_zero_or_pos n with rfl | pos
  · rw [Nat.cast_zero]
    exact .zero
  · have isNormal := isNormal_of_lt pos less
    have few : n.log2 ≤ 52 := log2_le_of_lt less
    have compared : compare (n : Int) 0 = .gt := Int.compare_eq_gt.mpr (by omega)
    have value := value_of_log2_le few
    simp only [UnpackedFloat.ofNat, UnpackedFloat.ofInt, UnpackedFloat.normalize, compared,
      Int.toNat_natCast, round_of_log2_le few isNormal]
    exact .finite isNormal (Nat.cast_pos.mpr pos) (value.symm ▸ Near.refl _)

/-! ## Sums and differences -/

theorem decreaseExponent_min
    (mantissa : Nat)
    {exponent least : Int}
    (smaller : least ≤ exponent) :
    ((decreaseExponent mantissa exponent least).1 : ℝ) * 2 ^ least = mantissa * 2 ^ exponent := by
  have value := decreaseExponent_value mantissa exponent least
  rwa [decreaseExponent_of_le mantissa smaller] at value

variable {k : Nat} {sign : Sign} {x y : Float} {v w : ℝ}

theorem Stands.mono
    {j : Nat}
    {u : UnpackedFloat}
    (stands : Stands j sign u v)
    (more : j ≤ k) :
    Stands k sign u v := by
  cases stands with
  | zero => exact .zero
  | finite isNormal pos near => exact .finite isNormal pos (near.mono pos.le more)

/-- A double is exact for a number that is near to the one it stands for. -/
theorem IsAbout.exists_exact
    (about : IsAbout k sign x v) :
    ∃ w, IsAbout 0 sign x w ∧ Near k w v := by
  unfold IsAbout at about ⊢
  generalize x.toModel.unpack = u at about
  cases about with
  | zero => exact ⟨0, .zero, (Near.refl 0).mono le_rfl (Nat.zero_le k)⟩
  | finite isNormal pos near =>
      have digits : (0 : ℝ) < _ := Nat.cast_pos.mpr isNormal.pos
      exact ⟨_, .finite isNormal (mul_pos digits (zpow_pos two_pos _)) (Near.refl _), near⟩

theorem IsAbout.abs
    (about : IsAbout k sign x v) :
    IsAbout k .positive x.abs v := by
  change IsAbout k .positive ⟨Float.Model.pack x.toModel.unpack.abs⟩ v
  unfold IsAbout at about
  generalize x.toModel.unpack = u at about
  refine Stands.pack ?_
  cases about with
  | zero => exact .zero
  | finite isNormal pos near => exact .finite isNormal pos near

/-- One rounding more of a number that is near. -/
theorem Stands.of_near
    {u : UnpackedFloat}
    {r : ℝ}
    (stands : Stands 1 sign u r)
    (near : Near k r v)
    (pos : 0 < v) :
    Stands (k + 1) sign u v := by
  cases stands with
  | zero =>
      have gone := (mul_pos pos (pow_pos (sub_pos.mpr roundoff_lt_one) k)).trans_le near.lower
      exact absurd gone (lt_irrefl 0)
  | finite isNormal _ nearer => exact .finite isNormal pos (nearer.trans near)

theorem Stands.add
    {a b : UnpackedFloat}
    (first : Stands k .positive a v)
    (second : Stands k .positive b w)
    (few : k ≤ 64)
    (inRange : 0 < v + w → InRange 499 (v + w)) :
    Stands (k + 1) .positive (UnpackedFloat.add Format.binary64 a b) (v + w) := by
  cases first with
  | zero =>
      rw [zero_add]
      cases second with
      | zero => exact .zero
      | finite isNormal pos near => exact (Stands.finite isNormal pos near).mono (Nat.le_succ k)
  | @finite m p _ isNormal pos near =>
      cases second with
      | zero =>
          rw [add_zero]
          exact (Stands.finite isNormal pos near).mono (Nat.le_succ k)
      | @finite n q _ isNormal' pos' near' =>
          have together := near.add near'
          have value : (((decreaseExponent m p (min p q)).1 +
              (decreaseExponent n q (min p q)).1 : Int).natAbs : ℝ) * 2 ^ min p q =
                m * 2 ^ p + n * 2 ^ q := by
            rw [← decreaseExponent_min m (min_le_left p q),
              ← decreaseExponent_min n (min_le_right p q), ← add_mul, ← Int.natCast_add,
              Int.natAbs_natCast, Nat.cast_add]
          have wide := together.inRange few (inRange (add_pos pos pos'))
          have stands := stands_normalize (min p q) fun _ => value.symm ▸ wide
          rw [value, if_neg (by omega)] at stands
          exact stands.of_near together (add_pos pos pos')

/-- The difference of doubles that are exact; zero has no sign. -/
theorem Stands.sub
    {a b : UnpackedFloat}
    (first : Stands 0 .positive a v)
    (second : Stands 0 .positive b w)
    (inRange : v ≠ w → InRange 500 |v - w|) :
    Stands 1 (if v < w then .negative else .positive) (UnpackedFloat.sub Format.binary64 a b)
      |v - w| := by
  cases first with
  | zero =>
      cases second with
      | zero =>
          rw [sub_zero, abs_zero]
          exact .zero
      | finite isNormal pos near =>
          rw [zero_sub, abs_neg, abs_of_pos pos, if_pos pos]
          exact (Stands.finite isNormal pos near).mono (Nat.le_succ 0)
  | @finite m p _ isNormal pos near =>
      cases second with
      | zero =>
          rw [sub_zero, abs_of_pos pos, if_neg pos.not_gt]
          exact (Stands.finite isNormal pos near).mono (Nat.le_succ 0)
      | @finite n q _ isNormal' pos' near' =>
          let digits : Int :=
            (decreaseExponent m p (min p q)).1 - (decreaseExponent n q (min p q)).1
          have power := zpow_pos (two_pos (α := ℝ)) (min p q)
          have value : (digits : ℝ) * 2 ^ min p q = v - w := by
            rw [← near.eq_of_zero, ← near'.eq_of_zero,
              ← decreaseExponent_min m (min_le_left p q),
              ← decreaseExponent_min n (min_le_right p q), ← sub_mul]
            push_cast [digits]
            rfl
          have magnitude : (digits.natAbs : ℝ) * 2 ^ min p q = |v - w| := by
            rw [← value, abs_mul, abs_of_pos power, Nat.cast_natAbs, Int.cast_abs]
          have negative_iff : digits < 0 ↔ v < w := by
            rw [← sub_neg (a := v), ← value, mul_neg_iff,
              or_iff_right fun both => both.2.not_gt power, and_iff_left power, Int.cast_lt_zero]
          have stands := stands_normalize (min p q) fun distinct =>
            magnitude.symm ▸ inRange fun same => by
              rw [same, sub_self, mul_eq_zero, or_iff_left power.ne', Int.cast_eq_zero] at value
              exact distinct value
          simp only [magnitude, negative_iff] at stands
          exact stands

/-! ## Products, quotients and roots -/

/-- The product of doubles of full precision. -/
theorem stands_mul_finite
    {j m n : Nat}
    {p q : Int}
    (isNormal : IsNormal m p)
    (isNormal' : IsNormal n q)
    (pos : 0 < v)
    (pos' : 0 < w)
    (near : Near j (m * 2 ^ p) v)
    (near' : Near k (n * 2 ^ q) w)
    (few : j + k ≤ 64)
    (inRange : InRange 499 (v * w))
    (sign sign' : Sign) :
    Stands (j + k + 1) (sign * sign')
      (UnpackedFloat.mul Format.binary64 (.finite sign m p isNormal.pos)
        (.finite sign' n q isNormal'.pos))
      (v * w) := by
  have product := near.mul near' pos.le pos'.le
  have value : ((m * n : Nat) : ℝ) * 2 ^ (p + q) = m * 2 ^ p * (n * 2 ^ q) := by
    rw [zpow_add₀ two_ne_zero, Nat.cast_mul, mul_mul_mul_comm]
  have large : 2 ^ 52 ≤ m * n :=
    isNormal.lower.trans (Nat.le_mul_of_pos_right m isNormal'.pos)
  have wide := product.inRange few inRange
  have upper := value.symm.trans_le (mul_le_succ_mul _ _)
  have rounded := stands_roundWithAccuracy large value.le upper wide (sign * sign') .exact
  exact rounded.of_near product (mul_pos pos pos')

theorem Stands.mul
    {j : Nat}
    {a b : UnpackedFloat}
    (first : Stands j .positive a v)
    (second : Stands k .positive b w)
    (few : j + k ≤ 64)
    (inRange : 0 < v * w → InRange 499 (v * w)) :
    Stands (j + k + 1) .positive (UnpackedFloat.mul Format.binary64 a b) (v * w) := by
  cases first with
  | zero =>
      rw [zero_mul]
      cases second <;> exact .zero
  | finite isNormal pos near =>
      cases second with
      | zero =>
          rw [mul_zero]
          exact .zero
      | finite isNormal' pos' near' =>
          exact stands_mul_finite isNormal isNormal' pos pos' near near' few
            (inRange (mul_pos pos pos')) .positive .positive

theorem Stands.square
    {a : UnpackedFloat}
    (stands : Stands k sign a v)
    (few : k + k ≤ 64)
    (inRange : 0 < v → InRange 499 (v * v)) :
    Stands (k + k + 1) .positive (UnpackedFloat.mul Format.binary64 a a) (v * v) := by
  cases stands with
  | zero =>
      rw [mul_zero]
      exact .zero
  | finite isNormal pos near =>
      have squared := stands_mul_finite isNormal isNormal pos pos near near few (inRange pos)
        sign sign
      have signs : sign * sign = .positive := by cases sign <;> rfl
      rwa [signs] at squared

/-- The digits of a quotient, of which the dividend has zeros behind its own. -/
theorem exists_divCore
    (m n : Nat)
    (p q : Int) :
    ∃ shift : Nat,
      p - q - shift = min (p - q) (max (m.log2 + p - (n.log2 + q) - 53) (-1074)) ∧
        divCore Format.binary64 m p n q =
          (m * 2 ^ shift / n, p - q - shift, accuracyOfFraction (m * 2 ^ shift % n) n) := by
  let target := min (p - q)
    (Format.binary64.targetExponent (totalExponent m p - totalExponent n q))
  have place : p - q - (p - q - target).toNat = target := by omega
  refine ⟨(p - q - target).toNat, ?_, ?_⟩
  · rw [place]
    simp only [target, Format.targetExponent, totalExponent, Format.mantissaBits,
      Format.minExponent]
    omega
  · rw [← Nat.shiftLeft_eq, place]
    rfl

/-- The digits of a quotient of doubles of full precision. -/
theorem divCore_of_normal
    {m n : Nat}
    {p q : Int}
    (isNormal : IsNormal m p)
    (isNormal' : IsNormal n q)
    (least : -1021 ≤ p - q) :
    divCore Format.binary64 m p n q =
      (m * 2 ^ 53 / n, p - q - 53, accuracyOfFraction (m * 2 ^ 53 % n) n) := by
  have digits : m.log2 = 52 := by simpa using isNormal.log2_scaled 0
  have digits' : n.log2 = 52 := by simpa using isNormal'.log2_scaled 0
  obtain ⟨shift, amount, core⟩ := exists_divCore m n p q
  obtain rfl : shift = 53 := by omega
  exact core

/-- The quotient by a double that is exact. -/
theorem Stands.div
    {a : UnpackedFloat}
    {n : Nat}
    {q : Int}
    (stands : Stands k sign a v)
    (isNormal' : IsNormal n q)
    (few : k ≤ 64)
    (inRange : 0 < v → InRange 499 (v / (n * 2 ^ q))) :
    Stands (k + 1) sign
      (UnpackedFloat.div Format.binary64 a (.finite .positive n q isNormal'.pos))
      (v / (n * 2 ^ q)) := by
  have other : (0 : ℝ) < n := Nat.cast_pos.mpr isNormal'.pos
  have divisor : (0 : ℝ) < n * 2 ^ q := mul_pos other (zpow_pos two_pos q)
  cases stands with
  | zero =>
      rw [zero_div]
      exact .zero
  | @finite m p _ isNormal pos near =>
      have quotient := near.div divisor
      have wide := quotient.inRange few (inRange pos)
      have value : (m : ℝ) * 2 ^ p / (n * 2 ^ q) = m / n * 2 ^ (p - q) := by
        rw [mul_div_mul_comm, zpow_sub₀ two_ne_zero]
      have least : -1021 ≤ p - q := by
        have ratio : (m : ℝ) / n ≤ 2 := by
          rw [div_le_iff₀ other]
          have few' : m ≤ 2 * n := by linarith [isNormal.upper, isNormal'.lower]
          exact_mod_cast few'
        have less : (2 : ℝ) ^ (-500 : Int) ≤ 2 ^ (1 + (p - q)) :=
          calc (2 : ℝ) ^ (-500 : Int) ≤ m / n * 2 ^ (p - q) := value ▸ wide.lower
            _ ≤ 2 * 2 ^ (p - q) := mul_le_mul_of_nonneg_right ratio (zpow_pos two_pos _).le
            _ = 2 ^ (1 + (p - q)) := by rw [zpow_add₀ two_ne_zero, zpow_one]
        have ordered := (zpow_le_zpow_iff_right₀ one_lt_two).mp less
        omega
      -- The quotient of the digits, and where it is cut off.
      have shifted : (m : ℝ) / n * 2 ^ (p - q) =
          ((m * 2 ^ 53 : Nat) : ℝ) / n * 2 ^ (p - q - 53) := by
        rw [zpow_sub₀ two_ne_zero (p - q) 53]
        push_cast
        field_simp
        norm_num
      have large : 2 ^ 52 ≤ m * 2 ^ 53 / n := by
        rw [Nat.le_div_iff_mul_le isNormal'.pos]
        exact Nat.mul_le_mul isNormal.lower isNormal'.upper.le
      have power := zpow_pos (two_pos (α := ℝ)) (p - q - 53)
      have lower : ((m * 2 ^ 53 / n : Nat) : ℝ) * 2 ^ (p - q - 53) ≤
          m * 2 ^ p / (n * 2 ^ q) := by
        rw [value, shifted]
        exact mul_le_mul_of_nonneg_right Nat.cast_div_le power.le
      have upper : (m : ℝ) * 2 ^ p / (n * 2 ^ q) ≤
          (((m * 2 ^ 53 / n : Nat) : ℝ) + 1) * 2 ^ (p - q - 53) := by
        rw [value, shifted]
        refine mul_le_mul_of_nonneg_right ((div_le_iff₀ other).mpr ?_) power.le
        exact_mod_cast (Nat.lt_mul_of_div_lt (Nat.lt_succ_self _) isNormal'.pos).le
      have rounded := stands_roundWithAccuracy large lower upper wide sign
        (accuracyOfFraction (m * 2 ^ 53 % n) n)
      have signs : sign / .positive = sign := by cases sign <;> rfl
      rw [UnpackedFloat.div, divCore_of_normal isNormal isNormal' least, signs]
      exact rounded.of_near quotient (div_pos pos divisor)

/-- The quotient of doubles that are not exact. -/
theorem Stands.quotient
    {j : Nat}
    {a b : UnpackedFloat}
    (first : Stands k sign a v)
    (second : Stands j .positive b w)
    (pos : 0 < w)
    (few : k + 2 * j ≤ 64)
    (inRange : 0 < v → InRange 498 (v / w)) :
    Stands (k + 2 * j + 1) sign (UnpackedFloat.div Format.binary64 a b) (v / w) := by
  cases second with
  | zero => exact absurd pos (lt_irrefl 0)
  | @finite n p _ isNormal' _ near' =>
      have divisor : (0 : ℝ) < n * 2 ^ p :=
        mul_pos (Nat.cast_pos.mpr isNormal'.pos) (zpow_pos two_pos p)
      cases first with
      | zero =>
          rw [zero_div]
          exact .zero
      | @finite m q _ isNormal pos' near =>
          have dividend : (0 : ℝ) < m * 2 ^ q :=
            mul_pos (Nat.cast_pos.mpr isNormal.pos) (zpow_pos two_pos q)
          have quotient := near.quotient near' pos'.le pos divisor
          have wide := quotient.inRange few (inRange pos')
          have itself : Stands 0 sign (.finite sign m q isNormal.pos) (m * 2 ^ q) :=
            .finite isNormal dividend (Near.refl _)
          have rounded := itself.div isNormal' (Nat.zero_le 64) fun _ => wide
          exact rounded.of_near quotient (div_pos pos' pos)

/-- The quotient by a literal. -/
theorem IsAbout.div
    {literal : Float}
    {divisor : ℝ}
    {n : Nat}
    {q : Int}
    (about : IsAbout k sign x v)
    (isNormal : IsNormal n q)
    (unpacked : literal.toModel.unpack = .finite .positive n q isNormal.pos)
    (value : (n : ℝ) * 2 ^ q = divisor)
    (few : k ≤ 64)
    (inRange : 0 < v → InRange 499 (v / divisor)) :
    IsAbout (k + 1) sign (x / literal) (v / divisor) := by
  subst value
  have quotient := (Stands.div about isNormal few inRange).pack
  rwa [← unpacked] at quotient

/-- The digits of a root. -/
theorem sqrtCore_of_normal
    {m : Nat}
    {p : Int}
    (isNormal : IsNormal m p) :
    ∃ shift : Nat, ∃ place : Int, ∃ accuracy, 52 ≤ shift ∧ p = 2 * place + shift ∧
      sqrtCore Format.binary64 m p = (Nat.sqrt (m * 2 ^ shift), place, accuracy) := by
  have digits : m.log2 = 52 := by simpa using isNormal.log2_scaled 0
  have least := isNormal.least
  have target : min (p.ediv 2)
      (Format.binary64.targetExponent ((totalExponent m p + 1).ediv 2)) = p / 2 - 26 := by
    simp only [Format.targetExponent, totalExponent, Format.mantissaBits, Format.minExponent,
      digits]
    change min (p / 2) (max ((((52 : Nat) : Int) + 1 + p + 1) / 2 - _) _) = _
    omega
  refine ⟨(p - 2 * (p / 2 - 26)).toNat, p / 2 - 26, (sqrtCore Format.binary64 m p).2.2,
    by omega, by omega, Prod.ext ?_ (Prod.ext ?_ rfl)⟩
  · simp only [sqrtCore, target, Nat.shiftLeft_eq]
  · simp only [sqrtCore, target]

theorem Stands.sqrt
    {a : UnpackedFloat}
    (stands : Stands k .positive a v)
    (few : k ≤ 64)
    (inRange : 0 < v → InRange 499 (√v)) :
    Stands (k + 1) .positive (UnpackedFloat.sqrt Format.binary64 a) (√v) := by
  cases stands with
  | zero =>
      rw [Real.sqrt_zero]
      exact .zero
  | @finite m p _ isNormal pos near =>
      have root := near.sqrt pos.le
      have wide := root.inRange few (inRange pos)
      obtain ⟨shift, place, accuracy, enough, split, core⟩ := sqrtCore_of_normal isNormal
      have power := zpow_pos (two_pos (α := ℝ)) place
      have value : (m : ℝ) * 2 ^ p = ((m * 2 ^ shift : Nat) : ℝ) * (2 ^ place) ^ 2 := by
        rw [split, zpow_add₀ two_ne_zero, two_mul, zpow_add₀ two_ne_zero, zpow_natCast]
        push_cast
        ring
      have scaled : √((m : ℝ) * 2 ^ p) = √((m * 2 ^ shift : Nat) : ℝ) * 2 ^ place := by
        rw [value, Real.sqrt_mul (Nat.cast_nonneg _), Real.sqrt_sq power.le]
      have large : 2 ^ 52 ≤ Nat.sqrt (m * 2 ^ shift) := by
        rw [Nat.le_sqrt', ← pow_mul]
        calc 2 ^ (52 * 2) = 2 ^ 52 * 2 ^ 52 := by rw [← pow_add]
          _ ≤ m * 2 ^ shift :=
            Nat.mul_le_mul isNormal.lower (Nat.pow_le_pow_right two_pos enough)
      have lower : (Nat.sqrt (m * 2 ^ shift) : ℝ) * 2 ^ place ≤ √((m : ℝ) * 2 ^ p) := by
        rw [scaled]
        refine mul_le_mul_of_nonneg_right (Real.le_sqrt_of_sq_le ?_) power.le
        exact_mod_cast Nat.sqrt_le' (m * 2 ^ shift)
      have upper : √((m : ℝ) * 2 ^ p) ≤ ((Nat.sqrt (m * 2 ^ shift) : ℝ) + 1) * 2 ^ place := by
        rw [scaled]
        refine mul_le_mul_of_nonneg_right ?_ power.le
        refine Real.sqrt_le_iff.mpr ⟨by positivity, ?_⟩
        exact_mod_cast (Nat.lt_succ_sqrt' (m * 2 ^ shift)).le
      have rounded := stands_roundWithAccuracy large lower upper wide .positive accuracy
      rw [UnpackedFloat.sqrt, core]
      exact rounded.of_near root (Real.sqrt_pos.mpr pos)

/-! ## Order -/

/-- Of two doubles of full precision that stand for different numbers the lesser is less. -/
theorem compare_of_lt
    {m n : Nat}
    {p q : Int}
    (isNormal : IsNormal m p)
    (isNormal' : IsNormal n q)
    (less : (m : ℝ) * 2 ^ p < n * 2 ^ q) :
    (compare p q).then (compare m n) = .lt := by
  rcases lt_trichotomy p q with low | rfl | high
  · rw [Int.compare_eq_lt.mpr low]
    rfl
  · have fewer : m < n := by
      exact_mod_cast lt_of_mul_lt_mul_right less (zpow_pos two_pos p).le
    rw [Int.compare_eq_eq.mpr rfl, Nat.compare_eq_lt.mpr fewer]
    rfl
  · have few : (n : ℝ) ≤ 2 ^ (53 : Int) := by exact_mod_cast isNormal'.upper.le
    have many : (2 : ℝ) ^ (52 : Int) ≤ m := by exact_mod_cast isNormal.lower
    have more : (n : ℝ) * 2 ^ q ≤ m * 2 ^ p :=
      calc (n : ℝ) * 2 ^ q ≤ 2 ^ (53 : Int) * 2 ^ q :=
            mul_le_mul_of_nonneg_right few (zpow_pos two_pos q).le
        _ = 2 ^ (52 : Int) * 2 ^ (q + 1) := by
          rw [← zpow_add₀ two_ne_zero, ← zpow_add₀ two_ne_zero]
          congr 1
          omega
        _ ≤ m * 2 ^ p :=
          mul_le_mul many (zpow_le_zpow_right₀ one_le_two high) (zpow_pos two_pos _).le
            (Nat.cast_nonneg m)
    exact absurd less (not_lt.mpr more)

/-- Numbers that are apart by more than their roundings are in the order of their doubles. -/
theorem IsAbout.lt
    (first : IsAbout k .positive x v)
    (second : IsAbout k .positive y w)
    (apart : v * (1 + roundoff) ^ k < w * (1 - roundoff) ^ k) :
    x < y := by
  rw [lt_iff_compare]
  unfold IsAbout at first second
  generalize x.toModel.unpack = a at first
  generalize y.toModel.unpack = b at second
  cases first with
  | zero =>
      cases second with
      | zero => exact absurd apart (by rw [zero_mul, zero_mul]; exact lt_irrefl 0)
      | finite => rfl
  | finite isNormal pos near =>
      cases second with
      | zero =>
          rw [zero_mul] at apart
          have nonneg := mul_nonneg pos.le (zero_le_one.trans (Near.one_le_pow_upper k))
          exact absurd apart (not_lt.mpr nonneg)
      | finite isNormal' pos' near' =>
          exact congrArg some (compare_of_lt isNormal isNormal' (near.lt near' apart))

theorem IsAbout.not_lt_zero
    (about : IsAbout k .positive x v) :
    ¬ x < Float.ofNat 0 := by
  rw [lt_iff_compare]
  unfold IsAbout at about
  generalize x.toModel.unpack = u at about
  cases about with
  | zero => exact nofun
  | finite => exact nofun

theorem IsAbout.lt_zero
    (about : IsAbout k .negative x v)
    (pos : 0 < v) :
    x < Float.ofNat 0 := by
  rw [lt_iff_compare]
  unfold IsAbout at about
  generalize x.toModel.unpack = u at about
  cases about with
  | zero => exact absurd pos (lt_irrefl 0)
  | finite => rfl

theorem then_compare_swap
    (p q : Int)
    (m n : Nat) :
    ((compare p q).then (compare m n)).swap = (compare q p).then (compare n m) := by
  rw [Ordering.swap_then, Int.compare_swap, Nat.compare_swap]

/-- The other way around a comparison comes out the other way around. -/
theorem compare_swap
    (a b : UnpackedFloat) :
    b.compare a = (a.compare b).map Ordering.swap := by
  cases a with
  | notANumber => cases b <;> rfl
  | infinity sign => cases b with
    | infinity other => cases sign <;> cases other <;> rfl
    | _ => cases sign <;> rfl
  | zero sign => cases b with
    | zero other => rfl
    | notANumber => rfl
    | infinity other => cases other <;> rfl
    | finite other => cases other <;> rfl
  | finite sign m p pos => cases b with
    | zero other => cases sign <;> rfl
    | notANumber => rfl
    | infinity other => cases other <;> rfl
    | finite other n q pos' =>
        cases sign <;> cases other
        · exact congrArg some (congrArg Ordering.swap (then_compare_swap p q m n).symm)
        · rfl
        · rfl
        · exact congrArg some (then_compare_swap p q m n).symm

/-- No two doubles are each less than the other. -/
theorem not_lt_of_lt
    (less : x < y) :
    ¬ y < x := by
  rw [lt_iff_compare] at less ⊢
  rw [compare_swap, less]
  exact fun both => Ordering.noConfusion (Option.some.inj both)

theorem IsAbout.isNaN_eq_false
    (about : IsAbout k sign x v) :
    x.isNaN = false := by
  change x.toModel.unpack.isNaN = false
  unfold IsAbout at about
  generalize x.toModel.unpack = u at about
  cases about <;> rfl

/-- Doubles that are not in the one order stand for numbers that are in the other, or nearly so. -/
theorem IsAbout.le_of_not_lt
    (first : IsAbout k .positive x v)
    (second : IsAbout k .positive y w)
    (notLess : ¬ x < y) :
    w * (1 - roundoff) ^ k ≤ v * (1 + roundoff) ^ k :=
  not_lt.mp fun apart => notLess (first.lt second apart)

/-- The lesser of two doubles is one of them, and stands for a number that is hardly greater than
the other. -/
theorem IsAbout.leastFloat_cases
    (first : IsAbout k .positive x v)
    (second : IsAbout k .positive y w) :
    leastFloat x y = x ∧ v * (1 - roundoff) ^ k ≤ w * (1 + roundoff) ^ k ∨
      leastFloat x y = y ∧ w * (1 - roundoff) ^ k ≤ v * (1 + roundoff) ^ k := by
  rw [leastFloat, first.isNaN_eq_false, second.isNaN_eq_false]
  simp only [Bool.false_eq_true, if_false]
  split
  · next less => exact .inr ⟨rfl, first.le_of_not_lt second (not_lt_of_lt less)⟩
  · next notLess => exact .inl ⟨rfl, second.le_of_not_lt first notLess⟩

/-- The greater of two doubles is one of them, and stands for a number that is hardly less than the
other. -/
theorem IsAbout.greatestFloat_cases
    (first : IsAbout k .positive x v)
    (second : IsAbout k .positive y w) :
    greatestFloat x y = x ∧ w * (1 - roundoff) ^ k ≤ v * (1 + roundoff) ^ k ∨
      greatestFloat x y = y ∧ v * (1 - roundoff) ^ k ≤ w * (1 + roundoff) ^ k := by
  rw [greatestFloat, first.isNaN_eq_false, second.isNaN_eq_false]
  simp only [Bool.false_eq_true, if_false]
  split
  · next less => exact .inr ⟨rfl, second.le_of_not_lt first (not_lt_of_lt less)⟩
  · next notLess => exact .inl ⟨rfl, first.le_of_not_lt second notLess⟩

end Binary
end Darkroom
