import Darkroom.Number.Integer

/-!
# Reading decimal numbers

A number has an optional sign, digits with an optional point and an optional exponent; `inf`,
`infinity` and `nan` are read in any case.  It denotes the nearest double; a magnitude beyond the
largest gives infinity, one below half the least gives zero.
-/

namespace Darkroom
namespace Decimal

/-- A decimal `digits · 10 ^ exponent`. -/
structure Literal where
  /-- The digits without the point, as a number. -/
  digits : Nat
  /-- The power of ten. -/
  exponent : Int
deriving DecidableEq, Repr

/-- The nearest double. -/
def Literal.value (l : Literal) : Float :=
  if l.digits = 0 then 0.0
  else
    let top : Int := (Nat.toDigits 10 l.digits).length + l.exponent
    if 400 < top then 1.0 / 0.0
    else if top < -400 then 0.0
    else Float.ofScientific l.digits (l.exponent < 0) l.exponent.natAbs

/-- An exponent mark with its digits, or nothing. -/
def exponent? : List Char → Option Int
  | [] => some 0
  | mark :: rest =>
      if mark = 'e' ∨ mark = 'E' then
        match rest with
        | '-' :: digits => (Integer.digits? digits).map fun n => -(n : Int)
        | '+' :: digits => (Integer.digits? digits).map Int.ofNat
        | digits => (Integer.digits? digits).map Int.ofNat
      else none

/-- Digits with an optional point and an optional exponent; a point alone is no number. -/
def literal? (s : List Char) : Option Literal :=
  let whole := s.takeWhile Char.isDigit
  let afterWhole := s.dropWhile Char.isDigit
  let (fraction, tail) := match afterWhole with
    | '.' :: rest => (rest.takeWhile Char.isDigit, rest.dropWhile Char.isDigit)
    | _ => ([], afterWhole)
  if whole.isEmpty && fraction.isEmpty then none
  else (exponent? tail).map fun e =>
    { digits := Integer.ofDigits (whole ++ fraction), exponent := e - fraction.length }

/-- A magnitude: a literal or a word for infinity or for no number. -/
def magnitude? (s : List Char) : Option Float :=
  match literal? s with
  | some l => some l.value
  | none =>
      let word := String.ofList (Text.lower s)
      if word = "inf" ∨ word = "infinity" then some (1.0 / 0.0)
      else if word = "nan" then some (0.0 / 0.0)
      else none

/-- A number with an optional sign. -/
def number? : List Char → Option Float
  | '-' :: rest => (magnitude? rest).map fun x => -x
  | '+' :: rest => magnitude? rest
  | s => magnitude? s

end Decimal
end Darkroom
