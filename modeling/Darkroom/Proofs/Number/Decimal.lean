import Darkroom.Number.Decimal
import Darkroom.Proofs.Geometry.Scenes

/-!
# Numbers in decimal notation

The notation is stated here on its own: digits with an optional point among them, then an optional
power of ten, behind an optional sign.  Digits and what they stand for are those of the indexes in
scene lists.  A text in this notation is read as the double nearest to what it writes.  Nothing that
is read as a number, words for infinity included, holds anything but letters, digits, points and
signs.
-/

namespace Darkroom
namespace Decimal

open Scenes (IsNumeral digits?_eq_some_iff)

/-! ## The notation -/

instance : DecidablePred IsNumeral :=
  fun digits => inferInstanceAs (Decidable (digits ≠ [] ∧ ∀ c ∈ digits, c.isDigit))

/-- How a power of ten is written: nothing for the power zero, or a mark, a sign if wanted, and
digits. -/
inductive WritesPower : List Char → Int → Prop
  | absent :
      WritesPower [] 0
  | plain
      {mark : Char}
      {digits : List Char}
      (isMark : mark = 'e' ∨ mark = 'E')
      (isNumeral : IsNumeral digits) :
      WritesPower (mark :: digits) (Scenes.numeral digits)
  | plus
      {mark : Char}
      {digits : List Char}
      (isMark : mark = 'e' ∨ mark = 'E')
      (isNumeral : IsNumeral digits) :
      WritesPower (mark :: '+' :: digits) (Scenes.numeral digits)
  | minus
      {mark : Char}
      {digits : List Char}
      (isMark : mark = 'e' ∨ mark = 'E')
      (isNumeral : IsNumeral digits) :
      WritesPower (mark :: '-' :: digits) (-(Scenes.numeral digits : Int))

/-- How a decimal is written without its sign: digits with an optional point among them, then a
power of ten. -/
inductive WritesLiteral : List Char → Literal → Prop
  | whole
      {whole power : List Char}
      {exponent : Int}
      (isNumeral : IsNumeral whole)
      (written : WritesPower power exponent) :
      WritesLiteral (whole ++ power) ⟨Scenes.numeral whole, exponent⟩
  | point
      {whole fraction power : List Char}
      {exponent : Int}
      (isNumeral : IsNumeral (whole ++ fraction))
      (written : WritesPower power exponent) :
      WritesLiteral (whole ++ '.' :: (fraction ++ power))
        ⟨Scenes.numeral (whole ++ fraction), exponent - fraction.length⟩

/-- How a double is written in decimal notation: it is the one nearest to the decimal, with the sign
in front of it. -/
inductive WritesNumber : List Char → Float → Prop
  | plain
      {s : List Char}
      {l : Literal}
      (written : WritesLiteral s l) :
      WritesNumber s l.value
  | plus
      {s : List Char}
      {l : Literal}
      (written : WritesLiteral s l) :
      WritesNumber ('+' :: s) l.value
  | minus
      {s : List Char}
      {l : Literal}
      (written : WritesLiteral s l) :
      WritesNumber ('-' :: s) (-l.value)

/-! ## Reading the notation -/

theorem WritesPower.eq_nil_or_mark
    {power : List Char}
    {exponent : Int}
    (written : WritesPower power exponent) :
    power = [] ∨ ∃ mark rest, power = mark :: rest ∧ (mark = 'e' ∨ mark = 'E') := by
  cases written with
  | absent => exact .inl rfl
  | plain isMark _ => exact .inr ⟨_, _, rfl, isMark⟩
  | plus isMark _ => exact .inr ⟨_, _, rfl, isMark⟩
  | minus isMark _ => exact .inr ⟨_, _, rfl, isMark⟩

theorem WritesPower.stops
    {power : List Char}
    {exponent : Int}
    (written : WritesPower power exponent) :
    power.takeWhile Char.isDigit = [] ∧ power.dropWhile Char.isDigit = power := by
  obtain rfl | ⟨mark, rest, rfl, rfl | rfl⟩ := written.eq_nil_or_mark <;> exact ⟨rfl, rfl⟩

theorem exponent?_of_writesPower
    {power : List Char}
    {exponent : Int}
    (written : WritesPower power exponent) :
    exponent? power = some exponent := by
  cases written with
  | absent => rfl
  | plus isMark isNumeral =>
      simp [exponent?, isMark, digits?_eq_some_iff.mpr ⟨isNumeral, rfl⟩]
  | minus isMark isNumeral =>
      simp [exponent?, isMark, digits?_eq_some_iff.mpr ⟨isNumeral, rfl⟩]
  | @plain mark digits isMark isNumeral =>
      simp only [exponent?, isMark, if_true]
      split
      · exact absurd (isNumeral.2 '-' List.mem_cons_self) (by decide)
      · exact absurd (isNumeral.2 '+' List.mem_cons_self) (by decide)
      · simp [digits?_eq_some_iff.mpr ⟨isNumeral, rfl⟩]

theorem span_digits
    {digits rest : List Char}
    (allDigits : ∀ c ∈ digits, c.isDigit)
    (stops : rest.takeWhile Char.isDigit = [] ∧ rest.dropWhile Char.isDigit = rest) :
    (digits ++ rest).takeWhile Char.isDigit = digits ∧
      (digits ++ rest).dropWhile Char.isDigit = rest := by
  rw [List.takeWhile_append_of_pos allDigits, List.dropWhile_append_of_pos allDigits, stops.1,
    stops.2, List.append_nil]
  exact ⟨rfl, rfl⟩

theorem literal?_of_writesLiteral
    {s : List Char}
    {l : Literal}
    (written : WritesLiteral s l) :
    literal? s = some l := by
  cases written with
  | @whole whole power exponent isNumeral written =>
      obtain ⟨front, behind⟩ := span_digits isNumeral.2 written.stops
      have read := exponent?_of_writesPower written
      -- Without a point there are no digits behind it.
      obtain rfl | ⟨mark, rest, rfl, rfl | rfl⟩ := written.eq_nil_or_mark <;>
        simp only [literal?, front, behind] <;>
        simp [isNumeral.1, read, Scenes.ofDigits_eq_numeral]
  | @point whole fraction power exponent isNumeral written =>
      have stops : ('.' :: (fraction ++ power)).takeWhile Char.isDigit = [] ∧
          ('.' :: (fraction ++ power)).dropWhile Char.isDigit = '.' :: (fraction ++ power) :=
        ⟨rfl, rfl⟩
      obtain ⟨wholeDigits, fractionDigits⟩ := List.forall_mem_append.mp isNumeral.2
      obtain ⟨front, behind⟩ := span_digits wholeDigits stops
      obtain ⟨middle, last⟩ := span_digits fractionDigits written.stops
      simp only [literal?, front, behind, middle, last, exponent?_of_writesPower written]
      rw [if_neg, Scenes.ofDigits_eq_numeral]
      · rfl
      · simpa using isNumeral.1

/-- The first character of a decimal is a digit or a point. -/
theorem WritesLiteral.exists_cons
    {s : List Char}
    {l : Literal}
    (written : WritesLiteral s l) :
    ∃ first rest, s = first :: rest ∧ (first.isDigit ∨ first = '.') := by
  cases written with
  | @whole whole power exponent isNumeral written =>
      obtain ⟨first, rest, rfl⟩ := List.exists_cons_of_ne_nil isNumeral.1
      exact ⟨first, rest ++ power, rfl, .inl (isNumeral.2 first List.mem_cons_self)⟩
  | @point whole fraction power exponent isNumeral written =>
      cases whole with
      | nil => exact ⟨'.', fraction ++ power, rfl, .inr rfl⟩
      | cons first rest =>
          exact ⟨first, _, rfl, .inl (isNumeral.2 first List.mem_cons_self)⟩

/-- What is written in decimal notation is read as the double that it writes. -/
theorem number?_of_writesNumber
    {s : List Char}
    {x : Float}
    (written : WritesNumber s x) :
    number? s = some x := by
  have magnitude {s : List Char} {l : Literal} (written : WritesLiteral s l) :
      magnitude? s = some l.value := by
    rw [magnitude?, literal?_of_writesLiteral written]
  cases written with
  | plus written => exact magnitude written
  | minus written => rw [number?, magnitude written, Option.map_some]
  | plain written =>
      obtain ⟨first, rest, rfl, start⟩ := written.exists_cons
      unfold number?
      split
      · next same =>
        obtain ⟨rfl, -⟩ := List.cons.inj same
        exact absurd start (by decide)
      · next same =>
        obtain ⟨rfl, -⟩ := List.cons.inj same
        exact absurd start (by decide)
      · exact magnitude written

/-! ## What numbers are made of -/

/-- Letters, digits, points and signs. -/
def IsNumberChar (c : Char) : Prop :=
  c.isAlphanum ∨ c = '.' ∨ c = '+' ∨ c = '-'

instance : DecidablePred IsNumberChar :=
  fun c => inferInstanceAs (Decidable (c.isAlphanum ∨ c = '.' ∨ c = '+' ∨ c = '-'))

theorem isNumberChar_of_isDigit
    {c : Char}
    (isDigit : c.isDigit) :
    IsNumberChar c := by
  simp [IsNumberChar, Char.isAlphanum, isDigit]

theorem isNumberChar_of_isAlpha
    {c : Char}
    (letter : c.isAlpha) :
    IsNumberChar c := by
  simp [IsNumberChar, Char.isAlphanum, letter]

theorem not_blank_of_isNumberChar
    {c : Char}
    (isNumberChar : IsNumberChar c) :
    Text.isBlank c = false := by
  rcases isNumberChar with letterOrDigit | rfl | rfl | rfl
  · rw [Char.isAlphanum, Bool.or_eq_true] at letterOrDigit
    exact letterOrDigit.elim Text.isBlank_of_isAlpha Text.isBlank_of_isDigit
  all_goals decide

theorem digits?_alphabet
    {s : List Char}
    {n : Nat}
    (read : Integer.digits? s = some n) :
    ∀ c ∈ s, IsNumberChar c :=
  fun c mem => isNumberChar_of_isDigit ((digits?_eq_some_iff.mp read).1.2 c mem)

theorem exponent?_alphabet
    {s : List Char}
    {exponent : Int}
    (read : exponent? s = some exponent) :
    ∀ c ∈ s, IsNumberChar c := by
  cases s with
  | nil => simp
  | cons mark rest =>
      simp only [exponent?] at read
      split at read
      · next isMark =>
        rw [List.forall_mem_cons]
        refine ⟨by rcases isMark with rfl | rfl <;> decide, ?_⟩
        split at read
        · obtain ⟨_, read, -⟩ := Option.map_eq_some_iff.mp read
          obtain ⟨_, read, -⟩ := Option.bind_eq_some_iff.mp read
          exact List.forall_mem_cons.mpr ⟨by decide, digits?_alphabet read⟩
        · obtain ⟨_, read, -⟩ := Option.map_eq_some_iff.mp read
          exact List.forall_mem_cons.mpr ⟨by decide, digits?_alphabet read⟩
        · obtain ⟨_, read, -⟩ := Option.map_eq_some_iff.mp read
          exact digits?_alphabet read
      · cases read

theorem takeWhile_isDigit_alphabet
    (s : List Char) :
    ∀ c ∈ s.takeWhile Char.isDigit, IsNumberChar c :=
  fun _ mem => isNumberChar_of_isDigit (List.mem_takeWhile_imp mem)

theorem literal?_alphabet
    {s : List Char}
    {l : Literal}
    (read : literal? s = some l) :
    ∀ c ∈ s, IsNumberChar c := by
  have both {front behind : List Char}
      (frontHolds : ∀ c ∈ front, IsNumberChar c) (behindHolds : ∀ c ∈ behind, IsNumberChar c) :
      ∀ c ∈ front ++ behind, IsNumberChar c :=
    fun c mem => (List.mem_append.mp mem).elim (frontHolds c) (behindHolds c)
  rw [← List.takeWhile_append_dropWhile (p := Char.isDigit) (l := s)]
  refine both (takeWhile_isDigit_alphabet s) ?_
  simp only [literal?, Option.ite_none_left_eq_some, Option.map_eq_some_iff] at read
  obtain ⟨-, e, read, -⟩ := read
  split at read
  · next rest afterWhole =>
    rw [afterWhole, List.forall_mem_cons,
      ← List.takeWhile_append_dropWhile (p := Char.isDigit) (l := rest)]
    exact ⟨by decide, both (takeWhile_isDigit_alphabet rest) (exponent?_alphabet read)⟩
  · exact exponent?_alphabet read

theorem magnitude?_alphabet
    {s : List Char}
    {x : Float}
    (read : magnitude? s = some x) :
    ∀ c ∈ s, IsNumberChar c := by
  unfold magnitude? at read
  split at read
  · next l isLiteral => exact literal?_alphabet isLiteral
  · have spelled {word : String} (letters : ∀ c ∈ word.toList, c.isAlpha)
        (same : String.ofList (Text.lower s) = word) : ∀ c ∈ s, IsNumberChar c := by
      intro c mem
      refine isNumberChar_of_isAlpha (Text.isAlpha_of_toLower (letters _ ?_))
      rw [← same, String.toList_ofList]
      exact List.mem_map_of_mem mem
    dsimp only at read
    split at read
    · next infinite => exact infinite.elim (spelled (by decide)) (spelled (by decide))
    split at read
    · next noNumber => exact spelled (by decide) noNumber
    · cases read

/-- Numbers are made of letters, digits, points and signs. -/
theorem number?_alphabet
    {s : List Char}
    {x : Float}
    (read : number? s = some x) :
    ∀ c ∈ s, IsNumberChar c := by
  unfold number? at read
  split at read
  · obtain ⟨_, read, -⟩ := Option.map_eq_some_iff.mp read
    exact List.forall_mem_cons.mpr ⟨by decide, magnitude?_alphabet read⟩
  · exact List.forall_mem_cons.mpr ⟨by decide, magnitude?_alphabet read⟩
  · exact magnitude?_alphabet read

end Decimal
end Darkroom
