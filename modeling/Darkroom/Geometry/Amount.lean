import Darkroom.Geometry.Basic
import Darkroom.Number.Shortest

/-!
# Amounts and limits

Amounts of memory and the like are numbers with a prefix: `64k` counts in thousands, `64KiB` in
powers of 1024.
-/

namespace Darkroom
namespace Amount

/-- The power that a prefix letter stands for. -/
def prefixPower? (c : Char) : Option Nat :=
  match c.toUpper with
  | 'K' => some 1
  | 'M' => some 2
  | 'G' => some 3
  | 'T' => some 4
  | 'P' => some 5
  | 'E' => some 6
  | _ => none

/-- The factor of a unit: a prefix letter, an optional `i` for powers of 1024, an optional `B`. -/
def factor? : List Char → Option Float
  | [] => some 1.0
  | c :: tail =>
      match prefixPower? c with
      | some power =>
          let (base, tail) := match tail with
            | 'i' :: more => (1024, more)
            | _ => (1000, tail)
          if tail.isEmpty || Text.lower tail == ['b'] then some (Float.ofNat (base ^ power))
          else none
      | none => if c.toUpper = 'B' ∧ tail.isEmpty then some 1.0 else none

/-- An amount; a percentage is taken of `whole`. -/
def parse? (text : String) (whole : Float) : Option Float :=
  (takeNumber true (Text.trim text.toList)).bind fun (value, rest) =>
    let unit := Text.trim rest
    if unit = ['%'] then some (value * whole / 100.0)
    else if unit.isEmpty then some value
    else (factor? unit).map (value * ·)

/-- The binary units that limits are written in. -/
def units : List String := ["", "KiB", "MiB", "GiB", "TiB", "PiB"]

/-- The number in the largest unit that leaves it whole, with the unit. -/
def scaled : Float → List String → Float × String
  | v, unit :: next :: more =>
      if 1024.0 ≤ v && isWholeFloat (v / 1024.0) then scaled (v / 1024.0) (next :: more)
      else (v, unit)
  | v, [unit] => (v, unit)
  | v, [] => (v, "")

/-- The text of an amount in binary units. -/
def text (v : Float) : String :=
  let (number, unit) := scaled v units
  decimal number ++ unit

end Amount

/-- The limit of a resource. -/
inductive Limit where
  /-- No limit. -/
  | unlimited
  /-- At most so much. -/
  | amount (value : Float)
deriving Repr, Inhabited

namespace Limit

/-- The text of a limit. -/
def text : Limit → String
  | unlimited => "unlimited"
  | amount value => Amount.text value

/-- The limit a text names; a percentage is taken of one hundred. -/
def parse? (text : String) : Option Limit :=
  if sameWord (trimmed text) "unlimited" then some unlimited
  else (Amount.parse? text 100.0).map amount

end Limit
end Darkroom
