import Darkroom.Color.Basic
import Darkroom.Fault
import Darkroom.Number.Decimal

/-!
# Reading colors

A color is hexadecimal with one, two or four digits for each channel, a function of channel values
such as `rgb(255, 0, 0)`, a percentage of gray such as `gray50`, or a name.  Case and surrounding
blanks do not matter.
-/

namespace Darkroom

/-- A text that is no color. -/
structure ColorError where
  /-- The text as written. -/
  text : String
deriving DecidableEq, Repr

namespace ColorError

/-- The wording of the error. -/
def message (e : ColorError) : String :=
  "unrecognized color `" ++ e.text ++ "`"

/-- The fault it is reported as. -/
def toFault (e : ColorError) : Fault :=
  .unrecognizedColor e.text

end ColorError

namespace Color

/-! ## Names -/

/-- The named colors with their values, in alphabetical order. -/
def names : List (String × Color) :=
  [ ("aqua", ⟨0, 255, 255, 255⟩),
    ("black", .black),
    ("blue", ⟨0, 0, 255, 255⟩),
    ("brown", ⟨165, 42, 42, 255⟩),
    ("cyan", ⟨0, 255, 255, 255⟩),
    ("fuchsia", ⟨255, 0, 255, 255⟩),
    ("gold", ⟨255, 215, 0, 255⟩),
    ("gray", ⟨126, 126, 126, 255⟩),
    ("green", ⟨0, 128, 0, 255⟩),
    ("grey", ⟨190, 190, 190, 255⟩),
    ("indigo", ⟨75, 0, 130, 255⟩),
    ("khaki", ⟨240, 230, 140, 255⟩),
    ("lime", ⟨0, 255, 0, 255⟩),
    ("magenta", ⟨255, 0, 255, 255⟩),
    ("maroon", ⟨128, 0, 0, 255⟩),
    ("navy", ⟨0, 0, 128, 255⟩),
    ("none", .transparent),
    ("olive", ⟨128, 128, 0, 255⟩),
    ("orange", ⟨255, 165, 0, 255⟩),
    ("pink", ⟨255, 192, 203, 255⟩),
    ("purple", ⟨128, 0, 128, 255⟩),
    ("red", ⟨255, 0, 0, 255⟩),
    ("silver", ⟨192, 192, 192, 255⟩),
    ("skyblue", ⟨135, 206, 235, 255⟩),
    ("tan", ⟨210, 180, 140, 255⟩),
    ("teal", ⟨0, 128, 128, 255⟩),
    ("transparent", .transparent),
    ("violet", ⟨238, 130, 238, 255⟩),
    ("wheat", ⟨245, 222, 179, 255⟩),
    ("white", .white),
    ("yellow", ⟨255, 255, 0, 255⟩) ]

/-- The color of a lower-case name. -/
def named? (name : String) : Option Color :=
  names.lookup name

/-! ## Written forms -/

/-- The value of a hexadecimal digit in either case. -/
def hexValue? (c : Char) : Option Nat :=
  if c.isDigit then some (c.toNat - 48)
  else if 'a' ≤ c ∧ c ≤ 'f' then some (c.toNat - 87)
  else if 'A' ≤ c ∧ c ≤ 'F' then some (c.toNat - 55)
  else none

/-- The channel values of digits that stand alone: `d` means `dd`. -/
def ofSingles (digits : List Nat) : List UInt8 :=
  digits.map fun d => UInt8.ofNat (17 * d)

/-- The channel values of pairs of digits. -/
def ofPairs : List Nat → List UInt8
  | a :: b :: rest => UInt8.ofNat (16 * a + b) :: ofPairs rest
  | _ => []

/-- The channel values of groups of four digits, of which the high byte counts. -/
def ofQuads : List Nat → List UInt8
  | a :: b :: _ :: _ :: rest => UInt8.ofNat (16 * a + b) :: ofQuads rest
  | _ => []

/-- Three channels that cover fully, or four. -/
def ofChannels? : List UInt8 → Option Color
  | [r, g, b] => some ⟨r, g, b, 255⟩
  | [r, g, b, a] => some ⟨r, g, b, a⟩
  | _ => none

/-- The digits behind the mark `#`. -/
def hex? (s : List Char) : Option Color :=
  (s.mapM hexValue?).bind fun digits =>
    if digits.length = 3 ∨ digits.length = 4 then ofChannels? (ofSingles digits)
    else if digits.length = 6 ∨ digits.length = 8 then ofChannels? (ofPairs digits)
    else if digits.length = 12 ∨ digits.length = 16 then ofChannels? (ofQuads digits)
    else none

/-- A number, with a percent sign taken as so many hundredths of `whole`. -/
def amount? (whole : Float) (s : List Char) : Option Float :=
  let s := Text.trim s
  match Text.before? ['%'] s with
  | some percent => (Decimal.number? (Text.trim percent)).map fun p => p * whole / 100.0
  | none => Decimal.number? s

/-- A channel value: a number up to 255 or a percentage. -/
def channelValue? (s : List Char) : Option UInt8 :=
  (amount? 255.0 s).map nearestByte

/-- A coverage: a fraction up to one or a percentage. -/
def alphaValue? (s : List Char) : Option UInt8 :=
  (amount? 1.0 s).map fun v => nearestByte (clampFloat v 0.0 1.0 * 255.0)

/-- A function of channel values. -/
def function? (name : String) (body : List Char) : Option Color :=
  match name, body.splitOn ',' with
  | "rgb", [r, g, b] | "srgb", [r, g, b] => do
      some ⟨← channelValue? r, ← channelValue? g, ← channelValue? b, 255⟩
  | "rgba", [r, g, b, a] | "srgba", [r, g, b, a] => do
      some ⟨← channelValue? r, ← channelValue? g, ← channelValue? b, ← alphaValue? a⟩
  | "gray", [v] | "grey", [v] => (channelValue? v).map gray
  | "graya", [v, a] | "greya", [v, a] => do
      let v ← channelValue? v
      some ⟨v, v, v, ← alphaValue? a⟩
  | _, _ => none

/-- A percentage of gray: `gray0` to `gray100`. -/
def shade? (s : List Char) : Option Color :=
  let level? (mark : String) : Option Color :=
    ((Text.after? mark.toList s).bind Integer.word32?).bind fun level =>
      if level ≤ 100 then some (gray (nearestByte (level.toFloat * 255.0 / 100.0))) else none
  (level? "gray").orElse fun _ => level? "grey"

/-- A color in any of its written forms. -/
def ofChars? (s : List Char) : Option Color :=
  match Text.trim s with
  | '#' :: digits => hex? digits
  | body =>
      let body := Text.lower body
      match Text.cut? '(' body with
      | some (name, arguments) =>
          (Text.before? [')'] arguments).bind (function? (String.ofList (Text.trim name)))
      | none => (named? (String.ofList body)).orElse fun _ => shade? body

/-- A color in any of its written forms, or the text that is none. -/
def parse (text : String) : Except ColorError Color :=
  match ofChars? text.toList with
  | some c => .ok c
  | none => .error ⟨text⟩

end Color
end Darkroom
