import Darkroom.Image

/-!
# Neighborhoods

Operators that compute a pixel from those around it: three by three weights, and order statistics
over a window.
-/

namespace Darkroom
namespace Raster

/-- The places around a place, in row order. -/
def around : List (Int × Int) :=
  [(-1, -1), (0, -1), (1, -1), (-1, 0), (0, 0), (1, 0), (-1, 1), (0, 1), (1, 1)]

/-- Each channel as the weighted sum of the three by three values around it, over the sum of the
weights unless that is zero.  The outermost rows and columns become zero. -/
def weigh (r : Raster) (weights : List Int) : Raster :=
  let total := weights.foldl (· + ·) 0
  let divisor := if total = 0 then 1 else total
  let value (k : Channel) (x y : Nat) : UInt8 :=
    let sum := (around.zip weights).foldl
      (fun sum ((dx, dy), w) =>
        match r.get? (x + dx) (y + dy) with
        | some c => sum + w * ((c.get k).toNat : Int)
        | none => sum)
      0
    UInt8.ofNat (max 0 (min 255 (Int.tdiv sum divisor))).toNat
  r.mapPlaces fun x y _ =>
    if x = 0 ∨ y = 0 ∨ x + 1 = r.width ∨ y + 1 = r.height then Color.transparent
    else ⟨value .red x y, value .green x y, value .blue x y, value .alpha x y⟩

/-- The weights that find edges. -/
def edgeWeights : List Int := [-1, -1, -1, -1, 8, -1, -1, -1, -1]

/-- The weights that make a relief. -/
def reliefWeights : List Int := [-2, -1, 0, -1, 1, 1, 0, 1, 2]

/-- The values of a channel in the window around a place; places outside are moved to the edge. -/
def window (r : Raster) (k : Channel) (radiusX radiusY x y : Nat) : List UInt8 :=
  let clip (n : Nat) (radius offset side : Nat) : Nat := min (n + offset - radius) (side - 1)
  (List.range (2 * radiusY + 1)).flatMap fun dy =>
    (List.range (2 * radiusX + 1)).map fun dx =>
      (r.get (clip x radiusX dx r.width) (clip y radiusY dy r.height)).get k

/-- The value of a statistic on the values of a window; not every statistic is known. -/
def statistic? : Statistic → Option (List UInt8 → UInt8)
  | .minimum => some fun values => values.foldl min 255
  | .maximum => some fun values => values.foldl max 0
  | .mean => some fun values =>
      let sum := values.foldl (fun sum v => sum + v.toNat) 0
      nearestByte (Float.ofNat sum / Float.ofNat (max 1 values.length))
  | .median => some fun values =>
      (values.mergeSort (· ≤ ·)).getD (values.length / 2) 0
  | _ => none

/-- Each color channel replaced by a statistic of the window of a given size around it. -/
def reduceWindows (r : Raster) (size : Size) (reduce : List UInt8 → UInt8) : Raster :=
  let radius (side : UInt32) : Nat := (max 1 side).toNat / 2
  let value (k : Channel) (x y : Nat) : UInt8 :=
    reduce (r.window k (radius size.width) (radius size.height) x y)
  r.mapPlaces fun x y c =>
    { c with red := value .red x y, green := value .green x y, blue := value .blue x y }

end Raster
end Darkroom
