import Darkroom.Pixels.Bitmap

/-!
# Blurring and sharpening

A blur takes weighted means along the rows and then along the columns.  The weights follow a
Gaussian bell, in whole parts of `2 ^ 15`, as far out as they do not vanish.  Sharpening moves each
value away from its blur.
-/

namespace Darkroom
namespace Blur

/-- How far a bell reaches to each side, at most 1024 steps. -/
def reach (sigma : Float) : Nat :=
  let side := greatestFloat (((sigma - 0.8) / 0.3 + 1.0) * 2.0 + 1.0) 3.0
  min 1024 ((truncUInt32 side).toNat / 2)

/-- The weights of a bell by distance from its middle. -/
def weights (sigma : Float) : List Nat :=
  let height (distance : Nat) : Float :=
    let t := Float.ofNat distance / sigma
    (-(t * t) / 2.0).exp
  let sides := (List.range' 1 (reach sigma)).map height
  let total := 1.0 + 2.0 * sides.foldl (· + ·) 0.0
  let parts (h : Float) : Nat := (nearestUInt32 (h / total * Float.ofNat (2 ^ 15))).toNat
  parts 1.0 :: (sides.map parts).takeWhile (0 < ·)

/-- The weights with the steps they belong to, on both sides. -/
def taps : List Nat → List (Int × Nat)
  | [] => []
  | middle :: sides =>
      (0, middle) :: sides.zipIdx.flatMap fun (w, i) =>
        [(-((i : Int) + 1), w), ((i : Int) + 1, w)]

/-- The weighted mean of the values at the taps, to the nearest byte. -/
def mean (taps : List (Int × Nat)) (value : Int → UInt8) : UInt8 :=
  let total := taps.foldl (fun sum (_, w) => sum + w) 0
  let sum := taps.foldl (fun sum (offset, w) => sum + w * (value offset).toNat) 0
  UInt8.ofNat ((2 * sum + total) / (2 * total))

/-- The weighted mean of colors, each channel for itself. -/
def meanColor (taps : List (Int × Nat)) (color : Int → Color) : Color :=
  let channel (k : Channel) : UInt8 := mean taps fun offset => (color offset).get k
  ⟨channel .red, channel .green, channel .blue, channel .alpha⟩

/-- A place some steps on, which stays on a side of a given length. -/
def along (length place : Nat) (offset : Int) : Nat :=
  min (length - 1) ((place : Int) + offset).toNat

/-- Each color replaced by the mean along its row, then by the mean along its column. -/
def spread (weights : List Nat) (r : Raster) : Raster :=
  let taps := taps weights
  let rows := r.mapPlaces fun x y _ =>
    meanColor taps fun offset => r.get (along r.width x offset) y
  rows.mapPlaces fun x y _ =>
    meanColor taps fun offset => rows.get x (along r.height y offset)

/-- A raster blurred.  A bell of a single weight moves no value, but leaves nothing in the first
row. -/
def soften (sigma : Float) (r : Raster) : Raster :=
  match weights sigma with
  | [_] => r.mapPlaces fun _ y c => if y = 0 then Color.transparent else c
  | weights => spread weights r

/-- A value moved away from its blur, when they differ by more than a threshold. -/
def away (threshold : Int) (v blurred : UInt8) : UInt8 :=
  let difference : Int := (v.toNat : Int) - blurred.toNat
  if threshold < difference.natAbs then
    UInt8.ofNat (max 0 (min 255 ((v.toNat : Int) + difference))).toNat
  else v

/-- A raster sharpened. -/
def sharpen (sigma : Float) (threshold : Int) (r : Raster) : Raster :=
  let blurred := spread (weights sigma) r
  r.mapPlaces fun x y c =>
    let b := blurred.get x y
    ⟨away threshold c.red b.red, away threshold c.green b.green, away threshold c.blue b.blue,
      away threshold c.alpha b.alpha⟩

/-- The least deviation of a bell. -/
def leastSigma (sigma : Float) : Float :=
  greatestFloat sigma 0.1

end Blur
end Darkroom
