import Darkroom.Instances

/-!
# Doubles as exact binary fractions

A double is decoded from its bits into a sign, a whole number and a power of two.  Truncation,
rounding, remainders and the conversions to words are then exact arithmetic on natural numbers.
Conversions to words saturate: what lies outside the word's range goes to its nearer end, and a
value that is not a number goes to zero.
-/

namespace Darkroom

/-- What the bits of a double stand for. -/
inductive Binary where
  /-- Not a number. -/
  | undefined
  /-- An infinity. -/
  | infinite (negative : Bool)
  /-- The number `± mantissa · 2 ^ exponent`. -/
  | finite (negative : Bool) (mantissa : Nat) (exponent : Int)
deriving DecidableEq, Repr

namespace Binary

/-- The value of a double. -/
def ofFloat (x : Float) : Binary :=
  let bits := x.toBits.toNat
  let negative := decide (2 ^ 63 ≤ bits)
  let field : Nat := bits / 2 ^ 52 % 2 ^ 11
  let fraction := bits % 2 ^ 52
  if field = 2047 then
    if fraction = 0 then .infinite negative else .undefined
  else if field = 0 then .finite negative fraction (-1074)
  else .finite negative (fraction + 2 ^ 52) ((field : Int) - 1075)

/-- The whole part of `mantissa · 2 ^ exponent`. -/
def wholePart (mantissa : Nat) (exponent : Int) : Nat :=
  if 0 ≤ exponent then mantissa * 2 ^ exponent.toNat
  else mantissa / 2 ^ (-exponent).toNat

/-- The whole number nearest to `mantissa · 2 ^ exponent`; a half goes up. -/
def nearestWhole (mantissa : Nat) (exponent : Int) : Nat :=
  if 0 ≤ exponent then mantissa * 2 ^ exponent.toNat
  else (2 * mantissa + 2 ^ (-exponent).toNat) / 2 ^ ((-exponent).toNat + 1)

/-- Whether `mantissa · 2 ^ exponent` is a whole number. -/
def isWhole (mantissa : Nat) (exponent : Int) : Bool :=
  0 ≤ exponent || mantissa % 2 ^ (-exponent).toNat == 0

/-- The whole number `magnitude` picks for the value, brought into `low .. high`. -/
def toIntBy (magnitude : Nat → Int → Nat) (low high : Int) : Binary → Int
  | .undefined => 0
  | .infinite negative => if negative then low else high
  | .finite negative mantissa exponent =>
      let n : Int := magnitude mantissa exponent
      max low (min high (if negative then -n else n))

/-- The double `2 ^ exponent`, for exponents from `-1074` to `1023`. -/
def powerOfTwo (exponent : Int) : Float :=
  if -1022 ≤ exponent then Float.ofBits (UInt64.ofNat ((exponent + 1023).toNat * 2 ^ 52))
  else Float.ofBits (UInt64.ofNat (2 ^ (exponent + 1074).toNat))

/-- The double with a given sign and magnitude. -/
def signed (negative : Bool) (x : Float) : Float :=
  if negative then -x else x

end Binary

open Binary in
/-- A value toward zero as a signed word of 64 bits. -/
def truncInt64 (x : Float) : Int64 :=
  Int64.ofInt ((ofFloat x).toIntBy wholePart (-(2 ^ 63)) (2 ^ 63 - 1))

open Binary in
/-- A value toward zero as an unsigned word of 64 bits. -/
def truncUInt64 (x : Float) : UInt64 :=
  UInt64.ofNat ((ofFloat x).toIntBy wholePart 0 (2 ^ 64 - 1)).toNat

open Binary in
/-- A value toward zero as an unsigned word of 32 bits. -/
def truncUInt32 (x : Float) : UInt32 :=
  UInt32.ofNat ((ofFloat x).toIntBy wholePart 0 (2 ^ 32 - 1)).toNat

open Binary in
/-- A value toward zero as a byte. -/
def truncByte (x : Float) : UInt8 :=
  UInt8.ofNat ((ofFloat x).toIntBy wholePart 0 255).toNat

open Binary in
/-- The nearest unsigned word of 32 bits; a half goes away from zero. -/
def nearestUInt32 (x : Float) : UInt32 :=
  UInt32.ofNat ((ofFloat x).toIntBy nearestWhole 0 (2 ^ 32 - 1)).toNat

open Binary in
/-- The nearest byte; a half goes away from zero. -/
def nearestByte (x : Float) : UInt8 :=
  UInt8.ofNat ((ofFloat x).toIntBy nearestWhole 0 255).toNat

/-- The nearest whole number as a double; a half goes away from zero, a zero keeps its sign. -/
def nearestFloat (x : Float) : Float :=
  match Binary.ofFloat x with
  | .finite negative mantissa exponent =>
      if 0 ≤ exponent then x
      else Binary.signed negative (Float.ofNat (Binary.nearestWhole mantissa exponent))
  | _ => x

/-- Whether a double is a whole number; infinities are not. -/
def isWholeFloat (x : Float) : Bool :=
  match Binary.ofFloat x with
  | .finite _ mantissa exponent => Binary.isWhole mantissa exponent
  | _ => false

/-- The greatest whole number not above a finite value; zero for any other. -/
def floorInt (x : Float) : Int :=
  match Binary.ofFloat x with
  | .finite negative mantissa exponent =>
      let whole : Int := Binary.wholePart mantissa exponent
      if !negative then whole
      else if Binary.isWhole mantissa exponent then -whole
      else -whole - 1
  | _ => 0

/-- The least whole number not below a finite value; zero for any other. -/
def ceilInt (x : Float) : Int :=
  match Binary.ofFloat x with
  | .finite negative mantissa exponent =>
      let whole : Int := Binary.wholePart mantissa exponent
      if negative then -whole
      else if Binary.isWhole mantissa exponent then whole
      else whole + 1
  | _ => 0

/-- The remainder of a division toward zero, with the sign of the dividend. -/
def remainder (a b : Float) : Float :=
  match Binary.ofFloat a, Binary.ofFloat b with
  | .finite negative m p, .finite _ n q =>
      if n = 0 then 0.0 / 0.0
      else
        let base := min p q
        let dividend := m * 2 ^ (p - base).toNat
        let divisor := n * 2 ^ (q - base).toNat
        Binary.signed negative (Float.ofNat (dividend % divisor) * Binary.powerOfTwo base)
  | .finite .., .infinite _ => a
  | _, _ => 0.0 / 0.0

/-- The remainder in `0 ..< |b|`. -/
def positiveRemainder (a b : Float) : Float :=
  let r := remainder a b
  if r < 0.0 then r + b.abs else r

/-- The lesser of two values; one that is not a number gives way. -/
def leastFloat (a b : Float) : Float :=
  if a.isNaN then b else if b.isNaN then a else if b < a then b else a

/-- The greater of two values; one that is not a number gives way. -/
def greatestFloat (a b : Float) : Float :=
  if a.isNaN then b else if b.isNaN then a else if a < b then b else a

/-- A value brought into `low .. high`; one that is not a number is kept. -/
def clampFloat (x low high : Float) : Float :=
  if x < low then low else if high < x then high else x

/-- The distance from one to the next double. -/
def epsilon : Float := Binary.powerOfTwo (-52)

end Darkroom
