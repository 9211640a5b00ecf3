import Darkroom.Geometry.Amount
import Darkroom.Proofs.Geometry.Page
import Darkroom.Proofs.Number.Shortest

/-!
# Amounts and limits read back

A whole amount is divided by 1024 as long as nothing is left over, and written as a whole number
with the unit for that power.  The number ends where the unit begins, since no unit begins like a
power of ten, and the unit is read as the power again.  The product is exact, so the amount is read
back.
-/

namespace Darkroom

open Decimal (whole whole_eq_ofScientific isDigit_of_mem_toDigits)

namespace Amount

/-! ## Units -/

/-- What a text must be like to stand behind a number for a power of 1024. -/
structure IsUnit (power : Nat) (text : List Char) : Prop where
  /-- The number ends before it. -/
  stops : StopsNumber text
  /-- There are no blanks in it. -/
  solid : ∀ c ∈ text, Text.isBlank c = false
  /-- It does not make a percentage. -/
  noPercent : text ≠ ['%']
  /-- It is left out for no power, and only then. -/
  absent : text = [] ↔ power = 0
  /-- It is read as the power. -/
  factor : factor? text = some (Float.ofNat (1024 ^ power))

theorem isUnit_of_units
    {power : Nat}
    {unit : String}
    (listed : units[power]? = some unit) :
    IsUnit power unit.toList := by
  have inside : power < 6 := (List.getElem?_eq_some_iff.mp listed).1
  interval_cases power <;> obtain rfl := Option.some.inj listed
  · exact ⟨trivial, by decide, by decide, by decide, rfl⟩
  all_goals exact ⟨⟨rfl, by decide, by decide⟩, by decide, by decide, by decide, rfl⟩

/-! ## Numbers with units -/

/-- A whole number is divided by 1024 until something is left over or there are no more units. -/
theorem exists_scaled_ofNat
    {n : Nat}
    (pos : 0 < n)
    (less : n < 2 ^ 53)
    (unit : String)
    (more : List String) :
    ∃ m power text, m * 1024 ^ power = n ∧ (unit :: more)[power]? = some text ∧
      scaled (Float.ofNat n) (unit :: more) = (Float.ofNat m, text) := by
  induction more generalizing n unit with
  | nil => exact ⟨n, 0, unit, by simp, rfl, rfl⟩
  | cons next more inductionHypothesis =>
      rw [scaled]
      split
      · next divides =>
        obtain ⟨q, rfl, quotient⟩ :=
          Binary.exists_ofNat_div_1024 pos less (Bool.and_eq_true _ _ ▸ divides).2
        obtain ⟨m, power, text, number, listed, result⟩ :=
          inductionHypothesis (n := q) (by omega) (by omega) next
        refine ⟨m, power + 1, text, ?_, listed, ?_⟩
        · rw [pow_succ, ← Nat.mul_assoc, number]
        · rw [quotient, result]
      · exact ⟨n, 0, unit, by simp, rfl, rfl⟩

/-- A whole number with a unit is read as the product. -/
theorem parse?_append_unit
    {m power : Nat}
    {unit : String}
    (isUnit : IsUnit power unit.toList)
    (base : Float) :
    parse? (toString m ++ unit) base =
      some (if power = 0 then whole m else whole m * Float.ofNat (1024 ^ power)) := by
  have digits : (toString m).toList = Nat.toDigits 10 m := Nat.toList_repr
  have solid : ∀ c ∈ Nat.toDigits 10 m ++ unit.toList, Text.isBlank c = false := by
    intro c mem
    rcases List.mem_append.mp mem with digit | letter
    · exact Text.isBlank_of_isDigit (isDigit_of_mem_toDigits m c digit)
    · exact isUnit.solid c letter
  rw [parse?, String.toList_append, digits, Text.trim_of_solid solid,
    takeNumber_of_stops true m isUnit.stops]
  simp only [Option.bind_some, Text.trim_of_solid isUnit.solid, if_neg isUnit.noPercent,
    List.isEmpty_iff, isUnit.absent, isUnit.factor, Option.map_some]
  split <;> rfl

/-- A natural number of at most 53 digits is read back as an amount. -/
theorem parse?_text_ofNat
    {n : Nat}
    (small : n ≤ 2 ^ 53)
    (base : Float) :
    parse? (text (Float.ofNat n)) base = some (Float.ofNat n) := by
  rcases Nat.lt_or_eq_of_le small with less | rfl
  · rcases Nat.eq_zero_or_pos n with rfl | pos
    · have written : text (Float.ofNat 0) = toString 0 ++ "" := rfl
      have isUnit := isUnit_of_units (show units[0]? = some "" from rfl)
      rw [written, parse?_append_unit isUnit, if_pos rfl]
      rfl
    · obtain ⟨m, power, unit, rfl, listed, result⟩ := exists_scaled_ofNat pos less "" units.tail
      have m_pos : 0 < m := Nat.pos_of_mul_pos_right pos
      have m_less : m < 2 ^ 53 :=
        (Nat.le_mul_of_pos_right m (Nat.pow_pos (by decide))).trans_lt less
      have number : whole m = Float.ofNat m :=
        whole_eq_ofScientific m_pos ((Binary.log2_le_of_lt m_less).trans_lt (by decide))
      have written : text (Float.ofNat (m * 1024 ^ power)) = toString m ++ unit := by
        rw [text, show units = "" :: units.tail from rfl, result]
        exact congrArg (· ++ unit) (decimal_ofNat m_less)
      rw [written, parse?_append_unit (isUnit_of_units listed), number]
      split
      · next none => rw [none, pow_zero, Nat.mul_one]
      · rw [Binary.ofNat_mul_ofNat m_pos (Nat.pow_pos (by decide)) less]
  · have written : text (Float.ofNat (2 ^ 53)) = toString 8 ++ "PiB" := by decide +kernel
    have product : whole 8 * Float.ofNat (1024 ^ 5) = Float.ofNat (2 ^ 53) := rfl
    have isUnit := isUnit_of_units (show units[5]? = some "PiB" from rfl)
    rw [written, parse?_append_unit isUnit, if_neg (by decide), product]

/-- A word that starts with a letter is no amount. -/
theorem parse?_of_lower
    {text : String}
    {c : Char}
    {rest : List Char}
    (word : Text.lower (Text.trim text.toList) = c :: rest)
    (letter : c.isAlpha)
    (base : Float) :
    parse? text base = none := by
  obtain ⟨first, behind, trimmed, rfl, -⟩ := List.map_eq_cons_iff.mp word
  have noDigit := Text.isDigit_of_isAlpha (Text.isAlpha_of_toLower letter)
  have noNumber : first ≠ '.' ∧ first ≠ '+' ∧ first ≠ '-' := by
    refine ⟨?_, ?_, ?_⟩ <;> rintro rfl <;> exact absurd letter (by decide)
  rw [parse?, trimmed]
  simp [takeNumber, numeral, noDigit, noNumber]

end Amount

/-! ## Limits -/

namespace Limit

/-- A limit that is listed without a loss: none, or a whole amount of at most `2 ^ 53`. -/
inductive IsWhole : Limit → Prop where
  /-- There is no limit. -/
  | unlimited : IsWhole .unlimited
  /-- So much. -/
  | amount
      {v : Float}
      (whole : isWholeFloat v = true)
      (nonneg : 0.0 ≤ v)
      (small : v ≤ Float.ofNat (2 ^ 53)) :
      IsWhole (.amount v)

theorem parse?_of_amount
    {text : String}
    {v : Float}
    (read : Amount.parse? text 100.0 = some v) :
    parse? text = some (.amount v) := by
  have other : sameWord (trimmed text) "unlimited" = false := by
    rw [← Bool.not_eq_true]
    intro same
    have word : Text.lower (Text.trim text.toList) = 'u' :: "nlimited".toList := by
      simpa [sameWord, Text.sameIgnoringCase, trimmed, Text.lower] using same
    rw [Amount.parse?_of_lower word (by decide)] at read
    cases read
  rw [parse?, other, read]
  rfl

/-- A limit is read back from its text. -/
theorem parse?_text
    {limit : Limit}
    (isWhole : limit.IsWhole) :
    parse? limit.text = some limit := by
  cases isWhole with
  | unlimited => rfl
  | amount whole nonneg small =>
      obtain rfl | ⟨n, few, rfl⟩ := Binary.exists_ofNat_of_isWhole whole nonneg small
      · rfl
      · exact parse?_of_amount (Amount.parse?_text_ofNat few 100.0)

end Limit
end Darkroom
