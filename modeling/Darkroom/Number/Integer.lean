import Darkroom.Text.Basic

/-!
# Decimal integers

Whole numbers as options write them: ASCII digits with an optional sign.  A number outside the
range of its word is refused, never wrapped.
-/

namespace Darkroom
namespace Integer

/-- The number written by a string of ASCII digits. -/
def ofDigits (s : List Char) : Nat :=
  s.foldl (fun n c => 10 * n + (c.toNat - '0'.toNat)) 0

/-- At least one digit and nothing else. -/
def digits? (s : List Char) : Option Nat :=
  if s.isEmpty || !s.all Char.isDigit then none else some (ofDigits s)

/-- Digits with an optional plus sign, at most `limit`. -/
def unsigned? (limit : Nat) (s : List Char) : Option Nat :=
  let body := match s with
    | '+' :: rest => rest
    | _ => s
  (digits? body).filter (· ≤ limit)

/-- Digits with an optional sign, between `low` and `high`. -/
def signed? (low high : Int) (s : List Char) : Option Int :=
  let value : Option Int := match s with
    | '-' :: rest => (digits? rest).map (fun n => -(n : Int))
    | '+' :: rest => (digits? rest).map Int.ofNat
    | _ => (digits? s).map Int.ofNat
  value.filter fun n => low ≤ n && n ≤ high

/-- A number that fits an unsigned word of 32 bits. -/
def word32? (s : List Char) : Option UInt32 :=
  (unsigned? (2 ^ 32 - 1) s).map UInt32.ofNat

/-- A number that fits an unsigned word of 64 bits. -/
def word64? (s : List Char) : Option UInt64 :=
  (unsigned? (2 ^ 64 - 1) s).map UInt64.ofNat

/-- A number that fits a signed word of 64 bits. -/
def signed64? (s : List Char) : Option Int64 :=
  (signed? (-(2 ^ 63)) (2 ^ 63 - 1) s).map Int64.ofInt

/-- The decimal text of a number with its sign, plus included. -/
def withSign (n : Int) : String :=
  if n < 0 then toString n else "+" ++ toString n

end Integer
end Darkroom
