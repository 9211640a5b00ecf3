import Darkroom.Number.Binary

/-!
# The shortest decimal text of a double

The text of a double has the fewest significant digits that still read back as the same double, and
of those the digits nearest to it; a tie goes up.  It is positional: never an exponent, and no point
when no digit follows one.
-/

namespace Darkroom
namespace Shortest

/-- The interval of reals that read as `mantissa · 2 ^ exponent`, in quarter units of the last
binary place.  Below a power of two the lower neighbour is half as far. -/
structure Cell where
  /-- The value itself. -/
  value : Nat
  /-- The lower end. -/
  low : Nat
  /-- The upper end. -/
  high : Nat
  /-- The ends themselves read as the value. -/
  closed : Bool

/-- The cell of a positive double. -/
def cell (mantissa : Nat) (exponent : Int) : Cell where
  value := 4 * mantissa
  low := if mantissa = 2 ^ 52 ∧ -1074 < exponent then 4 * mantissa - 1 else 4 * mantissa - 2
  high := 4 * mantissa + 2
  closed := mantissa % 2 = 0

/-- Whether the fraction `num / den` lies in the cell, both in the same unit. -/
def Cell.contains (c : Cell) (num den : Nat) : Bool :=
  if c.closed then c.low * den ≤ num && num ≤ c.high * den
  else c.low * den < num && num < c.high * den

/-- Number of decimal digits. -/
def digitCount (n : Nat) : Nat :=
  (Nat.toDigits 10 n).length

/-- The exponent of the leading decimal digit of `num / den`. -/
def leadingExponent (num den : Nat) : Int :=
  if den ≤ num then (digitCount (num / den) : Int) - 1
  else
    let places := digitCount (den / num)
    if den ≤ num * 10 ^ (places - 1) then 1 - (places : Int) else -(places : Int)

/-- Looks at the grids of decimals with `digits`, `digits + 1`, … significant digits for one that
has a point in the cell; the answer is that point `d · 10 ^ k` as the pair `(d, k)`. -/
def search (c : Cell) (num den : Nat) (lead : Int) : (fuel digits : Nat) → Nat × Int
  | 0, digits => (num / den, lead - digits)
  | fuel + 1, digits =>
      let k : Int := lead - digits + 1
      -- the value is `n / d` steps of the grid, one step being `10 ^ k`
      let n := if 0 ≤ k then num else num * 10 ^ (-k).toNat
      let d := if 0 ≤ k then den * 10 ^ k.toNat else den
      let floor := n / d
      -- a grid point `p` is `p · d / n` times the value
      let inCell (p : Nat) : Bool := c.contains (c.value * p * d) n
      let up := inCell (floor + 1)
      if inCell floor && (!up || 2 * (n - floor * d) < d) then (floor, k)
      else if up then (floor + 1, k)
      else search c num den lead fuel (digits + 1)

/-- Drops the zeros that stand behind the point at the end. -/
def stripZeros : (fuel : Nat) → Nat → Int → Nat × Int
  | 0, d, k => (d, k)
  | fuel + 1, d, k => if k < 0 ∧ d % 10 = 0 then stripZeros fuel (d / 10) (k + 1) else (d, k)

/-- The positional text of `d · 10 ^ k`. -/
def positional (d : Nat) (k : Int) : String :=
  let digits := Nat.toDigits 10 d
  if 0 ≤ k then String.ofList (digits ++ List.replicate k.toNat '0')
  else
    let places := (-k).toNat
    let padded := List.replicate (places + 1 - digits.length) '0' ++ digits
    let whole := padded.length - places
    String.ofList (padded.take whole ++ '.' :: padded.drop whole)

/-- The text of a positive finite double. -/
def magnitude (mantissa : Nat) (exponent : Int) : String :=
  let num := mantissa * 2 ^ exponent.toNat
  let den := 2 ^ (-exponent).toNat
  let (d, k) := search (cell mantissa exponent) num den (leadingExponent num den) 17 1
  let (d, k) := stripZeros 400 d k
  positional d k

end Shortest

/-- The shortest text of a double. -/
def decimal (x : Float) : String :=
  match Binary.ofFloat x with
  | .undefined => "NaN"
  | .infinite negative => if negative then "-inf" else "inf"
  | .finite negative mantissa exponent =>
      let body := if mantissa = 0 then "0" else Shortest.magnitude mantissa exponent
      if negative then "-" ++ body else body

end Darkroom
