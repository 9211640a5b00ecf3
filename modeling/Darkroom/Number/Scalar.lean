import Darkroom.Number.Binary

/-!
# Arithmetic on doubles and on rationals

Sizes and tone curves are written once, over any type of scalars.  Read over `Float` they are what
runs; read over `Rat` they are the exact rules which rounding approximates.
-/

namespace Darkroom

/-- The arithmetic that sizes and tone curves need. -/
class Scalar (α : Type) extends Add α, Sub α, Mul α, Div α where
  /-- A whole number. -/
  whole : Nat → α
  /-- Strict order. -/
  less : α → α → Bool
  /-- Weak order. -/
  atMost : α → α → Bool
  /-- Equality of values. -/
  same : α → α → Bool
  /-- Absolute value. -/
  magnitude : α → α
  /-- The lesser of two values. -/
  least : α → α → α
  /-- The greater of two values. -/
  greatest : α → α → α
  /-- The nearest whole number; a half goes away from zero. -/
  nearest : α → α
  /-- The remainder in `0 ..< n`. -/
  residue : α → Nat → α
  /-- The whole part as a natural number; zero below zero. -/
  truncNat : α → Nat
  /-- The nearest word of 32 bits. -/
  toWord : α → UInt32
  /-- The nearest byte. -/
  toByte : α → UInt8
  /-- The distance from one to the next double. -/
  tiny : α

namespace Scalar

variable {α : Type} [Scalar α]

/-- A value brought into `low .. high`. -/
def clamp (x low high : α) : α :=
  if less x low then low else if less high x then high else x

end Scalar

instance : Scalar Float where
  whole := Float.ofNat
  less a b := a < b
  atMost a b := a ≤ b
  same a b := a == b
  magnitude := Float.abs
  least := leastFloat
  greatest := greatestFloat
  nearest := nearestFloat
  residue x n := positiveRemainder x (Float.ofNat n)
  truncNat x := (truncUInt32 x).toNat
  toWord := nearestUInt32
  toByte := nearestByte
  tiny := epsilon

namespace Rational

/-- The nearest whole number; a half goes away from zero. -/
def nearest (x : Rat) : Int :=
  if 0 ≤ x then (x + 1 / 2).floor else -((-x + 1 / 2).floor)

end Rational

instance : Scalar Rat where
  whole n := (n : Rat)
  less a b := decide (a < b)
  atMost a b := decide (a ≤ b)
  same a b := decide (a = b)
  magnitude x := if x < 0 then -x else x
  least a b := if b < a then b else a
  greatest a b := if a < b then b else a
  nearest x := (Rational.nearest x : Rat)
  residue x n := x - (n : Rat) * ((x / (n : Rat)).floor : Rat)
  truncNat x := x.floor.toNat
  toWord x := UInt32.ofNat (min (Rational.nearest x).toNat (2 ^ 32 - 1))
  toByte x := UInt8.ofNat (min (Rational.nearest x).toNat 255)
  tiny := 1 / 2 ^ 52

end Darkroom
