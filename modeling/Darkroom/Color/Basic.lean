import Darkroom.Number.Binary

/-!
# Colors

A color has three color channels and an alpha channel of eight bits each.  It is written in
hexadecimal, without the alpha when the color covers what lies under it.
-/

namespace Darkroom

/-- The channels of a color, in the order of its written form. -/
inductive Channel where
  /-- Red. -/
  | red
  /-- Green. -/
  | green
  /-- Blue. -/
  | blue
  /-- Coverage. -/
  | alpha
deriving DecidableEq, Repr

namespace Channel

/-- Every channel, in order. -/
def all : List Channel := [.red, .green, .blue, .alpha]

/-- The channels that carry color. -/
def colors : List Channel := [.red, .green, .blue]

/-- The position in the order. -/
def index : Channel → Nat
  | .red => 0
  | .green => 1
  | .blue => 2
  | .alpha => 3

/-- The letter of the channel. -/
def letter : Channel → Char
  | .red => 'R'
  | .green => 'G'
  | .blue => 'B'
  | .alpha => 'A'

end Channel

/-- A pixel value. -/
structure Color where
  /-- Red. -/
  red : UInt8
  /-- Green. -/
  green : UInt8
  /-- Blue. -/
  blue : UInt8
  /-- Coverage; 255 hides what lies under it. -/
  alpha : UInt8 := 255
deriving DecidableEq, Repr, Inhabited

namespace Color

/-- White. -/
def white : Color := ⟨255, 255, 255, 255⟩

/-- Black. -/
def black : Color := ⟨0, 0, 0, 255⟩

/-- No coverage. -/
def transparent : Color := ⟨0, 0, 0, 0⟩

/-- A shade of gray that covers fully. -/
def gray (v : UInt8) : Color := ⟨v, v, v, 255⟩

/-- Nothing shows through. -/
def isSolid (c : Color) : Bool := c.alpha == 255

/-- The value of a channel. -/
def get (c : Color) : Channel → UInt8
  | .red => c.red
  | .green => c.green
  | .blue => c.blue
  | .alpha => c.alpha

/-- The color with one channel changed. -/
def put (c : Color) : Channel → UInt8 → Color
  | .red, v => { c with red := v }
  | .green, v => { c with green := v }
  | .blue, v => { c with blue := v }
  | .alpha, v => { c with alpha := v }

@[simp] theorem get_put_self (c : Color) (k : Channel) (v : UInt8) : (c.put k v).get k = v := by
  cases k <;> rfl

theorem get_put_of_ne (c : Color) {j k : Channel} (v : UInt8) (distinct : j ≠ k) :
    (c.put k v).get j = c.get j := by
  cases j <;> cases k <;> first | rfl | exact absurd rfl distinct

/-- Two colors with the same channel values are the same. -/
theorem ext_get {c d : Color} (same : ∀ k, c.get k = d.get k) : c = d := by
  cases c; cases d
  have red := same .red
  have green := same .green
  have blue := same .blue
  have alpha := same .alpha
  simp only [get] at red green blue alpha
  subst red green blue alpha
  rfl

/-- The value of one hexadecimal digit, upper case. -/
def hexDigit (n : UInt8) : Char :=
  if n < 10 then Char.ofNat (48 + n.toNat) else Char.ofNat (55 + n.toNat)

/-- The two hexadecimal digits of a byte. -/
def hexPair (b : UInt8) : List Char :=
  [hexDigit (b / 16), hexDigit (b % 16)]

/-- The hexadecimal form as characters. -/
def chars (c : Color) : List Char :=
  '#' :: hexPair c.red ++ hexPair c.green ++ hexPair c.blue ++
    if c.isSolid then [] else hexPair c.alpha

/-- The hexadecimal form. -/
def text (c : Color) : String :=
  String.ofList c.chars

/-- The distance over all four channels as a fraction of the greatest one. -/
def distance (c d : Color) : Float :=
  let part (a b : UInt8) : Float :=
    let difference := (a.toFloat - b.toFloat) / 255.0
    difference * difference
  let sum := part c.red d.red + part c.green d.green + part c.blue d.blue + part c.alpha d.alpha
  (sum / 4.0).sqrt

/-- Equality up to a tolerance; a tolerance of zero or less asks for the same color. -/
def isNear (c d : Color) (fuzz : Float) : Bool :=
  if fuzz ≤ 0.0 then c == d else c.distance d ≤ fuzz

end Color
end Darkroom
