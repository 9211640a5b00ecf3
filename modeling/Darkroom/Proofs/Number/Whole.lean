import Darkroom.Proofs.Number.Decimal
import Darkroom.Proofs.Number.Double

/-!
# Whole numbers in texts

What is left of a double that is cut to a whole word has at most 53 digits with zeros behind them,
or it is an end of the range.  Either is read back from its own text, and cut to the word again it
is what it was.
-/

namespace Darkroom
namespace Decimal

open Binary

/-! ## Reading whole numbers -/

/-- The double nearest to a whole number. -/
def whole (n : Nat) : Float :=
  Literal.value ⟨n, 0⟩

/-- The double nearest to a whole number with a sign. -/
def signedWhole (n : Int) : Float :=
  if n < 0 then -whole n.natAbs else whole n.natAbs

theorem isDigit_of_mem_toDigits
    (n : Nat) :
    ∀ c ∈ Nat.toDigits 10 n, c.isDigit :=
  fun _ mem => Nat.isDigit_of_mem_toDigits (by decide) (by decide) mem

theorem writesLiteral_toDigits
    (n : Nat) :
    WritesLiteral (Nat.toDigits 10 n) ⟨n, 0⟩ := by
  have number : Scenes.numeral (Nat.toDigits 10 n) = n := by
    rw [← Scenes.ofDigits_eq_numeral]
    exact Nat.ofDigitChars_ten_toDigits
  have written := WritesLiteral.whole ⟨Nat.toDigits_ne_nil, isDigit_of_mem_toDigits n⟩ .absent
  rwa [List.append_nil, number] at written

theorem number?_toDigits
    (n : Nat) :
    number? (Nat.toDigits 10 n) = some (whole n) :=
  number?_of_writesNumber (.plain (writesLiteral_toDigits n))

/-- The sign that is always written. -/
def signOf (n : Int) : Char :=
  if n < 0 then '-' else '+'

theorem toList_withSign
    (n : Int) :
    (Integer.withSign n).toList = signOf n :: Nat.toDigits 10 n.natAbs := by
  rw [Integer.withSign, signOf, Int.toString_eq_repr, Int.repr_eq_if]
  split
  · have magnitude : (-n).toNat = n.natAbs := by omega
    rw [if_neg (by omega), String.toList_append, Nat.toList_repr, magnitude]
    rfl
  · have magnitude : n.toNat = n.natAbs := by omega
    rw [if_pos (by omega), String.toList_append, Nat.toList_repr, magnitude]
    rfl

theorem number?_signed
    (n : Int) :
    number? (signOf n :: Nat.toDigits 10 n.natAbs) = some (signedWhole n) := by
  rw [signOf, signedWhole]
  split
  · exact number?_of_writesNumber (.minus (writesLiteral_toDigits n.natAbs))
  · exact number?_of_writesNumber (.plus (writesLiteral_toDigits n.natAbs))

/-- The double of a whole number in the range of doubles is found without an exponent. -/
theorem whole_eq_ofScientific
    {n : Nat}
    (pos : 0 < n)
    (inRange : n.log2 < 1024) :
    whole n = Float.ofScientific n false 0 := by
  have few : (Nat.toDigits 10 n).length ≤ 400 := by
    refine (Nat.length_toDigits_le_iff (by decide) (by decide)).mpr ?_
    calc n < 2 ^ 1024 := (Nat.log2_lt (Nat.ne_of_gt pos)).mp inRange
      _ < 10 ^ 400 := by decide +kernel
  rw [whole, Literal.value, if_neg (Nat.ne_of_gt pos)]
  dsimp only
  rw [if_neg (by omega), if_neg (by omega)]
  rfl

/-! ## Exact numbers -/

/-- A double that stands for a whole number, and its opposite for the opposite. -/
def StandsFor (x : Float) (n : Nat) : Prop :=
  ∃ mantissa exponent, wholePart mantissa exponent = n ∧
    ofFloat x = .finite false mantissa exponent ∧ ofFloat (-x) = .finite true mantissa exponent

theorem standsFor_whole
    {n : Nat}
    (less : n < 2 ^ 64)
    (isExact : IsExact n) :
    StandsFor (whole n) n := by
  rcases Nat.eq_zero_or_pos n with rfl | pos
  · exact ⟨0, -1074, by rw [wholePart, if_neg (by decide), Nat.zero_div],
      by decide, by decide⟩
  · have inRange : n.log2 < 64 := (Nat.log2_lt (Nat.ne_of_gt pos)).mpr less
    rw [whole_eq_ofScientific pos (by omega)]
    exact exists_ofFloat_ofScientific pos (by omega) isExact

theorem StandsFor.toIntBy_eq
    {x : Float}
    {n : Nat}
    (standsFor : StandsFor x n)
    (low high : Int) :
    (ofFloat x).toIntBy wholePart low high = max low (min high n) ∧
      (ofFloat (-x)).toIntBy wholePart low high = max low (min high (-n)) := by
  obtain ⟨mantissa, exponent, value, decoded, opposite⟩ := standsFor
  rw [decoded, opposite, toIntBy, toIntBy, value]
  exact ⟨rfl, rfl⟩

/-- A whole number brought into the range of an unsigned word of 32 bits. -/
def saturated (n : Nat) : UInt32 :=
  UInt32.ofNat (min n (2 ^ 32 - 1))

theorem StandsFor.truncUInt32_eq
    {x : Float}
    {n : Nat}
    (standsFor : StandsFor x n) :
    truncUInt32 x = saturated n := by
  rw [truncUInt32, (standsFor.toIntBy_eq _ _).1, saturated]
  congr 1
  omega

theorem standsFor_whole_toNat
    (n : UInt32) :
    StandsFor (whole n.toNat) n.toNat := by
  have less := n.toNat_lt
  exact standsFor_whole (by omega) (isExact_of_le (by omega))

@[simp] theorem truncUInt32_whole_toNat
    (n : UInt32) :
    truncUInt32 (whole n.toNat) = n := by
  have less := n.toNat_lt
  have kept : min n.toNat (2 ^ 32 - 1) = n.toNat := by omega
  rw [(standsFor_whole_toNat n).truncUInt32_eq, saturated, kept, UInt32.ofNat_toNat]

/-! ## Words -/

/-- An unsigned word that is read back from its text: it is exact, or the end of the range. -/
def IsReadable (n : UInt64) : Prop :=
  IsExact n.toNat ∨ n.toNat = 2 ^ 64 - 1

/-- A signed word that is read back from its text: it is exact, or the upper end of the range. -/
def IsReadableSigned (n : Int64) : Prop :=
  IsExact n.toInt.natAbs ∨ n.toInt = 2 ^ 63 - 1

theorem toIntBy_mem
    (x : Float)
    {low high : Int}
    (ordered : low ≤ 0 ∧ 0 ≤ high) :
    low ≤ (ofFloat x).toIntBy wholePart low high ∧
      (ofFloat x).toIntBy wholePart low high ≤ high := by
  cases ofFloat x with
  | undefined => exact ordered
  | infinite negative => cases negative <;> simp only [toIntBy] <;> grind
  | finite negative mantissa exponent =>
      rw [toIntBy]
      omega

/-- A double is cut to an end of the range or to an exact number. -/
theorem toIntBy_cases
    (x : Float)
    {low high : Int}
    (ordered : low ≤ 0 ∧ 0 ≤ high) :
    (ofFloat x).toIntBy wholePart low high = low ∨
      (ofFloat x).toIntBy wholePart low high = high ∨
      IsExact ((ofFloat x).toIntBy wholePart low high).natAbs := by
  cases decoded : ofFloat x with
  | undefined => exact .inr (.inr (isExact_of_le (Nat.zero_le _)))
  | infinite negative =>
      cases negative with
      | false => exact .inr (.inl rfl)
      | true => exact .inl rfl
  | finite negative mantissa exponent =>
      have isExact := isExact_wholePart (mantissa_lt_of_ofFloat decoded) exponent
      rw [toIntBy]
      generalize wholePart mantissa exponent = n at isExact
      obtain ⟨z, signed, magnitude⟩ : ∃ z : Int, (if negative then -(n : Int) else n) = z ∧
          z.natAbs = n := by
        cases negative <;> simp
      rw [signed]
      have places : max low (min high z) = low ∨ max low (min high z) = high ∨
          max low (min high z) = z := by
        omega
      rcases places with atLow | atHigh | inside
      · exact .inl atLow
      · exact .inr (.inl atHigh)
      · rw [inside, magnitude]
        exact .inr (.inr isExact)

theorem isReadable_truncUInt64
    (x : Float) :
    IsReadable (truncUInt64 x) := by
  have ordered : (0 : Int) ≤ 0 ∧ (0 : Int) ≤ 2 ^ 64 - 1 := by decide
  obtain ⟨lower, upper⟩ := toIntBy_mem x ordered
  have cases := toIntBy_cases x ordered
  rw [IsReadable, truncUInt64]
  generalize (ofFloat x).toIntBy wholePart 0 (2 ^ 64 - 1) = z at lower upper cases
  have kept : (UInt64.ofNat z.toNat).toNat = z.natAbs := by
    rw [UInt64.toNat_ofNat']
    omega
  rw [kept]
  rcases cases with rfl | rfl | isExact
  · exact .inl (isExact_of_le (Nat.zero_le _))
  · exact .inr rfl
  · exact .inl isExact

theorem isReadable_truncInt64
    (x : Float) :
    IsReadableSigned (truncInt64 x) := by
  have ordered : (-(2 ^ 63) : Int) ≤ 0 ∧ (0 : Int) ≤ 2 ^ 63 - 1 := by decide
  obtain ⟨lower, upper⟩ := toIntBy_mem x ordered
  have cases := toIntBy_cases x ordered
  rw [IsReadableSigned, truncInt64]
  generalize (ofFloat x).toIntBy wholePart (-(2 ^ 63)) (2 ^ 63 - 1) = z at lower upper cases
  rw [Int64.toInt_ofInt_of_le lower (by omega)]
  rcases cases with rfl | rfl | isExact
  · exact .inl ⟨1, 63, by decide, by decide⟩
  · exact .inr rfl
  · exact .inl isExact

theorem truncUInt64_whole
    {n : UInt64}
    (isReadable : IsReadable n) :
    truncUInt64 (whole n.toNat) = n := by
  rcases isReadable with isExact | top
  · have less := n.toNat_lt
    rw [truncUInt64, ((standsFor_whole less isExact).toIntBy_eq _ _).1]
    have kept : (max 0 (min (2 ^ 64 - 1 : Int) n.toNat)).toNat = n.toNat := by omega
    rw [kept, UInt64.ofNat_toNat]
  · have read : truncUInt64 (whole (2 ^ 64 - 1)) = UInt64.ofNat (2 ^ 64 - 1) := by
      decide
    rw [top, read, ← top, UInt64.ofNat_toNat]

theorem truncUInt32_whole
    {n : UInt64}
    (isReadable : IsReadable n) :
    truncUInt32 (whole n.toNat) = saturated n.toNat := by
  rcases isReadable with isExact | top
  · exact (standsFor_whole n.toNat_lt isExact).truncUInt32_eq
  · rw [top]
    decide

theorem truncInt64_signedWhole
    {n : Int64}
    (isReadable : IsReadableSigned n) :
    truncInt64 (signedWhole n.toInt) = n := by
  have lower := n.le_toInt
  have upper := n.toInt_lt
  rcases isReadable with isExact | top
  · have standsFor := standsFor_whole (by omega) isExact
    have cut : (ofFloat (signedWhole n.toInt)).toIntBy wholePart (-(2 ^ 63)) (2 ^ 63 - 1) =
        n.toInt := by
      rw [signedWhole]
      split
      · rw [(standsFor.toIntBy_eq _ _).2]
        omega
      · rw [(standsFor.toIntBy_eq _ _).1]
        omega
    rw [truncInt64, cut, Int64.ofInt_toInt]
  · have read : truncInt64 (signedWhole (2 ^ 63 - 1)) = Int64.ofInt (2 ^ 63 - 1) := by
      decide
    rw [top, read, ← top, Int64.ofInt_toInt]

end Decimal
end Darkroom
