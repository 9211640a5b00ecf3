import Darkroom.Number.Decimal
import Darkroom.Toml.Basic

/-!
# Numbers, dates and truth values in TOML

A value that is neither quoted nor bracketed is one word.  Digits may be grouped by single
underscores, and a whole number has no leading zero.
-/

namespace Darkroom
namespace Toml

/-- The characters of an unquoted value. -/
def isWordChar (c : Char) : Bool :=
  c.isAlphanum || c == '_' || c == '+' || c == '-' || c == '.' || c == ':'

/-- The digits of a number without the underscores that group them. -/
def ungroup? (isDigit : Char → Bool) : List Char → Option (List Char)
  | [] => none
  | [c] => if isDigit c then some [c] else none
  | c :: '_' :: rest => if isDigit c then (ungroup? isDigit rest).map (c :: ·) else none
  | c :: rest => if isDigit c then (ungroup? isDigit rest).map (c :: ·) else none

/-- Decimal digits, underscores dropped, without a leading zero. -/
def wholeDigits? (s : List Char) : Option (List Char) :=
  (ungroup? Char.isDigit s).filter fun digits => digits.length ≤ 1 || digits.head? != some '0'

/-- A sign and what follows it. -/
def splitNumberSign : List Char → List Char × List Char
  | '-' :: rest => (['-'], rest)
  | '+' :: rest => (['+'], rest)
  | s => ([], s)

/-- The value of a digit in bases up to sixteen. -/
def digitValue? (c : Char) : Option Nat :=
  if c.isDigit then some (c.toNat - 48)
  else if 'a' ≤ c ∧ c ≤ 'f' then some (c.toNat - 87)
  else if 'A' ≤ c ∧ c ≤ 'F' then some (c.toNat - 55)
  else none

/-- A whole number in a base without sign. -/
def ofBase? (base : Nat) (s : List Char) : Option Int := do
  let isDigit (c : Char) : Bool := (digitValue? c).any (· < base)
  let digits ← ungroup? isDigit s
  let n := digits.foldl (fun n c => base * n + (digitValue? c).getD 0) 0
  if n < 2 ^ 63 then some n else none

/-- A whole number that fits 64 bits. -/
def integer? : List Char → Option Int
  | '0' :: 'x' :: rest => ofBase? 16 rest
  | '0' :: 'o' :: rest => ofBase? 8 rest
  | '0' :: 'b' :: rest => ofBase? 2 rest
  | s =>
      let (sign, digits) := splitNumberSign s
      (wholeDigits? digits).bind fun digits =>
        (Integer.signed64? (sign ++ digits)).map Int64.toInt

/-- An exponent with its mark, underscores dropped. -/
def exponentPart? : List Char → Option (List Char)
  | [] => some []
  | mark :: rest =>
      if mark = 'e' ∨ mark = 'E' then
        let (sign, digits) := splitNumberSign rest
        (ungroup? Char.isDigit digits).map fun digits => 'e' :: sign ++ digits
      else none

/-- A number with a fraction or an exponent; one beyond the largest double is refused. -/
def fraction? (s : List Char) : Option Float := do
  let isGrouped (c : Char) : Bool := c.isDigit || c == '_'
  let (sign, body) := splitNumberSign s
  let whole ← wholeDigits? (body.takeWhile isGrouped)
  let tail := body.dropWhile isGrouped
  let text ← match tail with
    | [] => none
    | '.' :: rest => do
        let digits ← ungroup? Char.isDigit (rest.takeWhile isGrouped)
        let power ← exponentPart? (rest.dropWhile isGrouped)
        some ('.' :: digits ++ power)
    | power => exponentPart? power
  let value ← Decimal.number? (sign ++ whole ++ text)
  if value == 1.0 / 0.0 then none else some value

/-- The words for infinity and for no number. -/
def specialFloat? (s : List Char) : Option Float :=
  let (sign, word) := splitNumberSign s
  if word = "inf".toList ∨ word = "nan".toList then Decimal.number? (sign ++ word) else none

/-- A number of two digits, at most `limit`. -/
def twoDigits? (limit : Nat) (a b : Char) : Option Nat :=
  (Integer.digits? [a, b]).filter (· ≤ limit)

/-- The number of days of a month. -/
def daysIn (year month : Nat) : Nat :=
  match month with
  | 2 => if year % 4 = 0 ∧ (year % 100 ≠ 0 ∨ year % 400 = 0) then 29 else 28
  | 4 | 6 | 9 | 11 => 30
  | _ => 31

/-- What follows a date at the start of a text. -/
def afterDate? : List Char → Option (List Char)
  | y₁ :: y₂ :: y₃ :: y₄ :: '-' :: m₁ :: m₂ :: '-' :: d₁ :: d₂ :: rest => do
      let year ← Integer.digits? [y₁, y₂, y₃, y₄]
      let month ← twoDigits? 12 m₁ m₂
      let day ← twoDigits? (daysIn year month) d₁ d₂
      if month = 0 ∨ day = 0 then none else some rest
  | _ => none

/-- What follows a time of day at the start of a text. -/
def afterTime? : List Char → Option (List Char)
  | h₁ :: h₂ :: ':' :: m₁ :: m₂ :: ':' :: s₁ :: s₂ :: rest => do
      let _ ← twoDigits? 23 h₁ h₂
      let _ ← twoDigits? 59 m₁ m₂
      let _ ← twoDigits? 60 s₁ s₂
      match rest with
      | '.' :: digits =>
          if (digits.takeWhile Char.isDigit).isEmpty then none
          else some (digits.dropWhile Char.isDigit)
      | _ => some rest
  | _ => none

/-- Whether a text is a distance from universal time. -/
def isOffset : List Char → Bool
  | ['Z'] | ['z'] => true
  | [sign, h₁, h₂, ':', m₁, m₂] =>
      (sign == '+' || sign == '-') && (twoDigits? 23 h₁ h₂).isSome && (twoDigits? 59 m₁ m₂).isSome
  | _ => false

/-- Whether a text is a date, a time or both. -/
def isDatetime (s : List Char) : Bool :=
  match afterDate? s with
  | some [] => true
  | some (mark :: rest) =>
      (mark == 'T' || mark == 't' || mark == ' ') &&
        match afterTime? rest with
        | some tail => tail.isEmpty || isOffset tail
        | none => false
  | none => afterTime? s == some []

/-- The value of a word. -/
def ofWord? (s : List Char) : Option Toml :=
  if s = "true".toList then some (.boolean true)
  else if s = "false".toList then some (.boolean false)
  else if isDatetime s then some (.datetime (String.ofList s))
  else match fraction? s, specialFloat? s with
    | some value, _ | none, some value => some (.float value)
    | none, none => (integer? s).map .integer

/-- Whether a text starts with the hour and the minutes of a time after a blank. -/
def startsTime : List Char → Bool
  | ' ' :: h₁ :: h₂ :: ':' :: _ => h₁.isDigit && h₂.isDigit
  | _ => false

/-- A value that is one word, or a date and a time with a blank between them, and what follows. -/
def scalar? (s : List Char) : Option (Toml × List Char) :=
  let word := s.takeWhile isWordChar
  let rest := s.dropWhile isWordChar
  if afterDate? word == some [] && startsTime rest then
    let more := rest.drop 1
    (ofWord? (word ++ ' ' :: more.takeWhile isWordChar)).map fun value =>
      (value, more.dropWhile isWordChar)
  else (ofWord? word).map fun value => (value, rest)

end Toml
end Darkroom
