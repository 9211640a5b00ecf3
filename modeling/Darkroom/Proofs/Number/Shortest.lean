import Darkroom.Number.Shortest
import Darkroom.Proofs.Number.Nearest

/-!
# Whole doubles and their texts

A whole double that is not large is one of the natural numbers, or the other zero.

A double that is a whole number below `2 ^ 53` is written with the digits of that number and
nothing else.  Half of its last binary place is at most a half, so the number itself is the only
whole number in its cell.  The search looks at grids of whole steps only: it ends at the grid of
ones, unless the number lies on a coarser one, and then the zeros are written out.
-/

namespace Darkroom
namespace Shortest

open Binary (IsNormal isNormal_of_lt ofNat_eq_double log2_le_of_lt)

/-! ## Cells of whole numbers -/

theorem Cell.contains_mul_iff
    (c : Cell)
    (v : Nat)
    {den : Nat}
    (pos : 0 < den) :
    c.contains (v * den) den = true ↔
      if c.closed then c.low ≤ v ∧ v ≤ c.high else c.low < v ∧ v < c.high := by
  rw [Cell.contains]
  split <;>
    simp only [Bool.and_eq_true, decide_eq_true_eq, Nat.mul_le_mul_right_iff pos,
      Nat.mul_lt_mul_right pos]

/-- A cell reaches half a place down at most, and half a place up. -/
theorem cell_bounds
    {mantissa : Nat}
    (pos : 0 < mantissa)
    (exponent : Int) :
    4 * mantissa - 2 ≤ (cell mantissa exponent).low ∧
      (cell mantissa exponent).low < 4 * mantissa ∧
      (cell mantissa exponent).high = 4 * mantissa + 2 := by
  refine ⟨?_, ?_, rfl⟩ <;> unfold cell <;> dsimp only <;> split <;> omega

section Cells

variable {n den : Nat} (n_pos : 0 < n) (den_pos : 0 < den) (exponent : Int)

include n_pos den_pos

/-- A whole number that is kept in units of `1 / den` is the only one in its cell. -/
theorem contains_iff_eq
    (q : Nat) :
    (cell (n * den) exponent).contains ((cell (n * den) exponent).value * (q * den)) (n * den) =
      true ↔ q = n := by
  have pos : 0 < n * den := Nat.mul_pos n_pos den_pos
  have value : (cell (n * den) exponent).value * (q * den) = 4 * (q * den) * (n * den) :=
    Nat.mul_right_comm 4 (n * den) (q * den)
  obtain ⟨low, below, high⟩ := cell_bounds pos exponent
  rw [value, Cell.contains_mul_iff _ _ pos]
  constructor
  · intro inside
    have between : 4 * (n * den) - 2 ≤ 4 * (q * den) ∧ 4 * (q * den) ≤ 4 * (n * den) + 2 := by
      split at inside <;> omega
    rcases Nat.lt_trichotomy q n with less | same | more
    · have apart : (q + 1) * den ≤ n * den := Nat.mul_le_mul_right den less
      rw [Nat.add_one_mul] at apart
      omega
    · exact same
    · have apart : (n + 1) * den ≤ q * den := Nat.mul_le_mul_right den more
      rw [Nat.add_one_mul] at apart
      omega
  · rintro rfl
    split <;> omega

/-- The search ends at a grid of whole steps, on the number itself. -/
theorem exists_search_eq
    (lead fuel digits : Nat)
    (whole : digits ≤ lead + 1)
    (enough : lead + 1 < digits + fuel) :
    ∃ d k : Nat, search (cell (n * den) exponent) (n * den) den lead fuel digits = (d, (k : Int)) ∧
      d * 10 ^ k = n := by
  induction fuel generalizing digits with
  | zero => exact absurd enough (by omega)
  | succ fuel inductionHypothesis =>
      obtain ⟨k, steps⟩ := Nat.exists_eq_add_of_le whole
      have place : (lead : Int) - digits + 1 = k := by omega
      have inCell (p : Nat) :
          (cell (n * den) exponent).contains
              ((cell (n * den) exponent).value * p * (den * 10 ^ k)) (n * den) = true ↔
            p * 10 ^ k = n := by
        have grouped : (cell (n * den) exponent).value * p * (den * 10 ^ k) =
            (cell (n * den) exponent).value * (p * 10 ^ k * den) := by ring
        rw [grouped, contains_iff_eq n_pos den_pos]
      have nonneg : (0 : Int) ≤ k := Int.natCast_nonneg k
      simp only [search, place, if_pos nonneg, Int.toNat_natCast]
      split
      · next found =>
        rw [Bool.and_eq_true] at found
        exact ⟨_, k, rfl, (inCell _).mp found.1⟩
      · next missed =>
        split
        · next found => exact ⟨_, k, rfl, (inCell _).mp found⟩
        · refine inductionHypothesis (digits + 1) ?_ (by omega)
          -- On the grid of ones the number is found.
          have coarse : k ≠ 0 := by
            rintro rfl
            apply missed
            rw [pow_zero, Nat.mul_one, Nat.mul_div_cancel n den_pos, Nat.sub_self, Bool.and_eq_true]
            have found := (inCell n).mpr (Nat.mul_one n)
            rw [pow_zero, Nat.mul_one] at found
            exact ⟨found, by simp [den_pos]⟩
          omega

end Cells

/-! ## Digits -/

/-- Zeros are written behind the digits of a number. -/
theorem toDigits_append_zeros
    {d : Nat}
    (pos : 0 < d)
    (k : Nat) :
    Nat.toDigits 10 d ++ List.replicate k '0' = Nat.toDigits 10 (d * 10 ^ k) := by
  induction k with
  | zero => simp
  | succ k inductionHypothesis =>
      calc Nat.toDigits 10 d ++ List.replicate (k + 1) '0'
          = Nat.toDigits 10 (d * 10 ^ k) ++ Nat.toDigits 10 0 := by
            rw [List.replicate_succ', ← List.append_assoc, inductionHypothesis]
            rfl
        _ = Nat.toDigits 10 (10 * (d * 10 ^ k) + 0) :=
            Nat.toDigits_append_toDigits (by decide) (Nat.mul_pos pos (by positivity)) (by decide)
        _ = Nat.toDigits 10 (d * 10 ^ (k + 1)) := by
            congr 1
            ring

theorem leadingExponent_whole
    {n den : Nat}
    (n_pos : 0 < n)
    (den_pos : 0 < den) :
    leadingExponent (n * den) den = (digitCount n - 1 : Nat) := by
  have some : 1 ≤ digitCount n := List.length_pos_iff.mpr Nat.toDigits_ne_nil
  rw [leadingExponent, if_pos (Nat.le_mul_of_pos_left den n_pos), Nat.mul_div_cancel n den_pos]
  omega

/-- A whole number is written with its digits. -/
theorem magnitude_whole
    {n places : Nat}
    (n_pos : 0 < n)
    (few : n < 10 ^ 16) :
    magnitude (n * 2 ^ places) (-places) = toString n := by
  have den_pos : (0 : Nat) < 2 ^ places := Nat.two_pow_pos places
  have digits : digitCount n ≤ 16 :=
    (Nat.length_toDigits_le_iff (by decide) (by decide)).mpr few
  obtain ⟨d, k, found, number⟩ := exists_search_eq n_pos den_pos (-places) (digitCount n - 1) 17 1
    (by omega) (by omega)
  have d_pos : 0 < d := Nat.pos_of_ne_zero fun zero => by simp [zero] at number; omega
  have num : n * 2 ^ places * 2 ^ (-(places : Int)).toNat = n * 2 ^ places := by simp
  have den : (2 : Nat) ^ (-(-(places : Int))).toNat = 2 ^ places := by simp
  have unchanged (fuel : Nat) : stripZeros fuel d k = (d, (k : Int)) := by
    cases fuel with
    | zero => rfl
    | succ fuel => rw [stripZeros, if_neg (by omega)]
  rw [magnitude]
  simp only [num, den, leadingExponent_whole n_pos den_pos, found, unchanged]
  rw [positional, if_pos (Int.natCast_nonneg k), Int.toNat_natCast, toDigits_append_zeros d_pos,
    number]
  rfl

end Shortest

namespace Binary

open Float.Model (Format UnpackedFloat)
open Float.Model.UnpackedFloat hiding round normalize

/-! ## Whole doubles -/

/-- The bits of a double are a sign, eleven bits and a fraction. -/
theorem bits_eq
    {bits : Nat}
    (less : bits < 2 ^ 64) :
    bits = (if decide (2 ^ 63 ≤ bits) then 2 ^ 63 else 0) + bits / 2 ^ 52 % 2 ^ 11 * 2 ^ 52 +
      bits % 2 ^ 52 := by
  simp only [decide_eq_true_eq]
  split <;> omega

/-- A finite double is known by what it stands for. -/
theorem eq_of_ofFloat
    {x y : Float}
    {negative : Bool}
    {mantissa : Nat}
    {exponent : Int}
    (decoded : ofFloat x = .finite negative mantissa exponent)
    (decoded' : ofFloat y = .finite negative mantissa exponent) :
    x = y := by
  have bits (z : Float) (decoded : ofFloat z = .finite negative mantissa exponent) :
      z.toBits.toNat = (if negative then 2 ^ 63 else 0) +
        if mantissa < 2 ^ 52 then mantissa
        else (exponent + 1075).toNat * 2 ^ 52 + (mantissa - 2 ^ 52) := by
    have split_bits := bits_eq z.toBits.toNat_lt
    have fraction : z.toBits.toNat % 2 ^ 52 < 2 ^ 52 := Nat.mod_lt _ (by decide)
    unfold ofFloat at decoded
    dsimp only at decoded
    split at decoded
    · split at decoded <;> cases decoded
    · split at decoded
      · next subnormal =>
        obtain ⟨rfl, rfl, rfl⟩ := Binary.finite.inj decoded
        rw [subnormal, Nat.zero_mul, Nat.add_zero] at split_bits
        rw [if_pos fraction]
        exact split_bits
      · obtain ⟨rfl, rfl, rfl⟩ := Binary.finite.inj decoded
        have place (field : Nat) : ((field : Int) - 1075 + 1075).toNat = field := by omega
        have normal : ¬ z.toBits.toNat % 2 ^ 52 + 2 ^ 52 < 2 ^ 52 := by omega
        rw [if_neg normal, place, Nat.add_sub_cancel, ← Nat.add_assoc]
        exact split_bits
  have same : x.toBits = y.toBits :=
    UInt64.toNat_inj.mp ((bits x decoded).trans (bits y decoded').symm)
  obtain ⟨⟨_, _⟩⟩ := x
  obtain ⟨⟨_, _⟩⟩ := y
  cases same
  rfl

theorem ofFloat_ofNat
    {n : Nat}
    (pos : 0 < n)
    (less : n < 2 ^ 53) :
    ofFloat (Float.ofNat n) =
      .finite false (n * 2 ^ (52 - n.log2)) (-((52 - n.log2 : Nat) : Int)) := by
  have few : n.log2 ≤ 52 := log2_le_of_lt less
  have place : (n.log2 : Int) - 52 = -((52 - n.log2 : Nat) : Int) := by omega
  rw [ofNat_eq_double pos less, (isNormal_of_lt pos less).ofFloat_double, place]
  rfl

/-- A double of full precision whose places behind the point are zeros is a natural number. -/
theorem exists_ofNat_of_dvd
    {x : Float}
    {mantissa places : Nat}
    (lower : 2 ^ 52 ≤ mantissa)
    (upper : mantissa < 2 ^ 53)
    (decoded : ofFloat x = .finite false mantissa (-(places : Int)))
    (whole : 2 ^ places ∣ mantissa) :
    ∃ n < 2 ^ 53, x = Float.ofNat n := by
  obtain ⟨n, rfl⟩ := whole
  have pos : 0 < n := Nat.pos_of_ne_zero fun zero => by simp [zero] at lower
  have less : n < 2 ^ 53 := (Nat.le_mul_of_pos_left n (Nat.two_pow_pos places)).trans_lt upper
  have few : places ≤ 52 := by
    by_contra many
    have power : (2 : Nat) ^ 53 ≤ 2 ^ places := Nat.pow_le_pow_right two_pos (by omega)
    exact absurd upper (Nat.not_lt.mpr (power.trans (Nat.le_mul_of_pos_right _ pos)))
  have digits : n.log2 = 52 - places := by
    have power : (2 : Nat) ^ places * 2 ^ (52 - places) = 2 ^ 52 := by
      rw [← Nat.pow_add, Nat.add_sub_cancel' few]
    have power' : (2 : Nat) ^ places * 2 ^ (52 - places + 1) = 2 ^ 53 := by
      rw [Nat.pow_succ, ← Nat.mul_assoc, power]
    refine (Nat.log2_eq_iff pos.ne').mpr ⟨?_, ?_⟩
    · exact Nat.le_of_mul_le_mul_left (power.trans_le lower) (Nat.two_pow_pos places)
    · exact Nat.lt_of_mul_lt_mul_left (upper.trans_eq power'.symm)
  refine ⟨n, less, eq_of_ofFloat decoded ?_⟩
  rw [ofFloat_ofNat pos less, digits, Nat.sub_sub_self few, Nat.mul_comm]

/-- A whole double from zero to `2 ^ 53` is a natural number, or the other zero. -/
theorem exists_ofNat_of_isWhole
    {x : Float}
    (whole : isWholeFloat x = true)
    (nonneg : 0.0 ≤ x)
    (small : x ≤ Float.ofNat (2 ^ 53)) :
    x = -0.0 ∨ ∃ n ≤ 2 ^ 53, x = Float.ofNat n := by
  have decoded := ofFloat_eq_ofUnpacked x
  rw [le_iff_le, show (0.0 : Float).toModel.unpack = .zero .positive from rfl] at nonneg
  have bound : (Float.ofNat (2 ^ 53)).toModel.unpack =
      .finite .positive (2 ^ 52) 1 (by decide) := rfl
  rw [le_iff_le, bound] at small
  rw [isWholeFloat] at whole
  cases unpacked : x.toModel.unpack with
  | notANumber =>
      rw [decoded, unpacked] at whole
      cases whole
  | infinity sign =>
      rw [decoded, unpacked] at whole
      cases whole
  | zero sign =>
      rw [unpacked] at decoded
      cases sign with
      | negative => exact .inl (eq_of_ofFloat decoded rfl)
      | positive => exact .inr ⟨0, Nat.zero_le _, eq_of_ofFloat decoded rfl⟩
  | finite sign mantissa exponent pos =>
      rw [unpacked] at decoded nonneg small
      cases sign with
      | negative => exact absurd nonneg Bool.false_ne_true
      | positive =>
          have upper := mantissa_lt_of_ofFloat decoded
          have some := le_mantissa_of_ofFloat decoded
          have ordered : ((compare exponent 1).then (compare mantissa (2 ^ 52))).isLE = true :=
            small
          rcases lt_trichotomy exponent 1 with low | rfl | high
          · obtain ⟨places, rfl⟩ : ∃ places : Nat, exponent = -(places : Int) :=
              ⟨(-exponent).toNat, by omega⟩
            have dvd : 2 ^ places ∣ mantissa := by
              rw [decoded] at whole
              have parts : 0 ≤ -(places : Int) ∨ mantissa % 2 ^ places = 0 := by
                simpa [ofUnpacked, isWhole] using whole
              rcases parts with none | zeros
              · obtain rfl : places = 0 := by omega
                exact ⟨mantissa, by rw [Nat.pow_zero, Nat.one_mul]⟩
              · exact Nat.dvd_of_mod_eq_zero zeros
            have lower : 2 ^ 52 ≤ mantissa := by
              refine some.resolve_right fun least => ?_
              have power : (2 : Nat) ^ 53 ≤ 2 ^ places := Nat.pow_le_pow_right two_pos (by omega)
              exact absurd (Nat.le_of_dvd pos dvd) (Nat.not_le.mpr (upper.trans_le power))
            obtain ⟨n, less, same⟩ := exists_ofNat_of_dvd lower upper decoded dvd
            exact .inr ⟨n, less.le, same⟩
          · have most : mantissa ≤ 2 ^ 52 := by
              rw [Int.compare_eq_eq.mpr rfl] at ordered
              exact Nat.isLE_compare.mp ordered
            obtain rfl : mantissa = 2 ^ 52 := le_antisymm most (some.resolve_right (by decide))
            exact .inr ⟨2 ^ 53, le_rfl, eq_of_ofFloat decoded rfl⟩
          · rw [Int.compare_eq_gt.mpr high] at ordered
            exact absurd ordered Bool.false_ne_true

theorem double_div_1024
    {mantissa : Nat}
    {exponent : Int}
    (isNormal : IsNormal mantissa exponent)
    (isNormal' : IsNormal mantissa (exponent - 10))
    (least : -1000 ≤ exponent) :
    isNormal.double .positive / 1024.0 = isNormal'.double .positive := by
  have divisor : IsNormal (2 ^ 52) (-42) := ⟨by decide, by decide, by decide, by decide⟩
  have unpacked : (1024.0 : Float).toModel.unpack = .finite .positive (2 ^ 52) (-42) divisor.pos :=
    rfl
  have digits : mantissa * 2 ^ 53 = mantissa * 2 ^ 1 * 2 ^ 52 := by rw [Nat.mul_assoc]
  have place : exponent - -42 - 53 = exponent - 10 - (1 : Nat) := by omega
  change (⟨Float.Model.pack (div Format.binary64 (isNormal.double .positive).toModel.unpack
    (1024.0 : Float).toModel.unpack)⟩ : Float) = _
  rw [isNormal.unpack_double, unpacked, UnpackedFloat.div,
    divCore_of_normal isNormal divisor (by omega), digits, Nat.mul_div_cancel _ (by decide),
    Nat.mul_mod_left, place]
  change (⟨Float.Model.pack (roundWithAccuracy Format.binary64 .positive _ _ .exact)⟩ : Float) = _
  rw [isNormal'.roundWithAccuracy]
  rfl

/-- The quotient of a whole number by 1024 is whole only if nothing is left over. -/
theorem exists_ofNat_div_1024
    {n : Nat}
    (pos : 0 < n)
    (less : n < 2 ^ 53)
    (whole : isWholeFloat (Float.ofNat n / 1024.0) = true) :
    ∃ q, n = q * 1024 ∧ Float.ofNat n / 1024.0 = Float.ofNat q := by
  have isNormal := isNormal_of_lt pos less
  have few : n.log2 ≤ 52 := log2_le_of_lt less
  have isNormal' : IsNormal (n * 2 ^ (52 - n.log2)) (n.log2 - 52 - 10) :=
    ⟨isNormal.lower, isNormal.upper, by omega, by have := isNormal.greatest; omega⟩
  have negative : ¬ (0 : Int) ≤ n.log2 - 52 - 10 := by omega
  have places : (-((n.log2 : Int) - 52 - 10)).toNat = (52 - n.log2) + 10 := by omega
  have dvd : 1024 ∣ n := by
    rw [isWholeFloat, ofNat_eq_double pos less, double_div_1024 isNormal isNormal' (by omega),
      isNormal'.ofFloat_double] at whole
    dsimp only at whole
    rw [isWhole, decide_eq_false negative, Bool.false_or, beq_iff_eq, places] at whole
    have zeros := Nat.dvd_of_mod_eq_zero whole
    rw [Nat.mul_comm n, Nat.pow_add] at zeros
    exact Nat.dvd_of_mul_dvd_mul_left (Nat.two_pow_pos _) zeros
  obtain ⟨q, rfl⟩ := dvd
  rw [Nat.mul_comm] at pos less ⊢
  exact ⟨q, rfl, ofNat_mul_div_ofNat (by omega) (by decide) less⟩

end Binary

open Binary in
/-- The text of a whole double is that of the number. -/
theorem decimal_ofNat
    {n : Nat}
    (less : n < 2 ^ 53) :
    decimal (Float.ofNat n) = toString n := by
  rcases Nat.eq_zero_or_pos n with rfl | pos
  · rfl
  · rw [decimal, ofFloat_ofNat pos less]
    dsimp only
    rw [if_neg (isNormal_of_lt pos less).pos.ne', Shortest.magnitude_whole pos (by omega)]
    rfl

end Darkroom
