import Darkroom.Image

/-!
# Resampling

A raster is brought to another size by weighted means of its pixels, first down the columns and
then along the rows, in single precision.  The weights come from a kernel which is widened when the
raster shrinks.
-/

namespace Darkroom
namespace Resample

/-- A kernel with the distance beyond which it is zero. -/
structure Kernel where
  /-- The distance beyond which the weight is zero. -/
  support : Float32
  /-- The weight at a distance. -/
  weight : Float32 → Float32

/-- The ratio of a circle to its diameter. -/
def pi : Float32 := (Float.ofScientific 3141592653589793238462643383279 true 30).toFloat32

/-- The nearest pixel. -/
def nearest : Kernel := ⟨0.0, fun _ => 1.0⟩

/-- Weights that fall off linearly. -/
def triangle : Kernel := ⟨1.0, fun x => if x.abs < 1.0 then 1.0 - x.abs else 0.0⟩

/-- The cubic through the pixels. -/
def cubic : Kernel where
  support := 2.0
  weight x :=
    let a := x.abs
    let square := a * a
    let cube := a * square
    let sixfold : Float32 :=
      if a < 1.0 then 9.0 * cube + -15.0 * square + 6.0
      else if a < 2.0 then -3.0 * cube + 15.0 * square + -24.0 * a + 12.0
      else 0.0
    sixfold / 6.0

/-- The normal density with a deviation of one half. -/
def gaussian : Kernel where
  support := 3.0
  weight x := 1.0 / ((2.0 * pi).sqrt * 0.5) * (-(x * x) / (2.0 * (0.5 * 0.5))).exp

/-- The sine of an angle in half turns over that angle. -/
def cardinalSine (t : Float32) : Float32 :=
  let a := t * pi
  if t == 0.0 then 1.0 else a.sin / a

/-- The cardinal sine in a window of three lobes. -/
def lanczos : Kernel where
  support := 3.0
  weight x := if x.abs < 3.0 then cardinalSine x * cardinalSine (x / 3.0) else 0.0

/-- The kernel of a filter. -/
def ofFilter : Filter → Kernel
  | .point | .box => nearest
  | .triangle | .hermite => triangle
  | .catrom | .cubic | .mitchell => cubic
  | .gaussian | .quadratic => gaussian
  | _ => lanczos

/-- The pixels that one pixel is a mean of. -/
structure Taps where
  /-- The first pixel. -/
  start : Nat
  /-- The weights, which add up to one. -/
  weights : List Float32

/-- The taps of pixel `i` when `old` pixels become `new`. -/
def taps (kernel : Kernel) (old new i : Nat) : Taps :=
  let ratio := Float32.ofNat old / Float32.ofNat new
  let scale := if ratio < 1.0 then 1.0 else ratio
  let support := kernel.support * scale
  let center := (Float32.ofNat i + 0.5) * ratio
  let start := (max 0 (min (floorInt (center - support).toFloat) ((old : Int) - 1))).toNat
  let stop :=
    (max ((start : Int) + 1) (min (ceilInt (center + support).toFloat) (old : Int))).toNat
  let origin := center - 0.5
  let weights := (List.range' start (stop - start)).map fun j =>
    kernel.weight ((Float32.ofNat j - origin) / scale)
  let sum := weights.foldl (· + ·) 0.0
  ⟨start, weights.map (· / sum)⟩

/-- The weighted mean of the values at the taps. -/
def Taps.mean (t : Taps) (value : Nat → Float32) : Float32 :=
  (t.weights.foldl (fun (sum, j) w => (sum + value j * w, j + 1)) ((0.0 : Float32), t.start)).1

/-- One channel brought to another size. -/
def plane (kernel : Kernel) (old new : Size) (value : Nat → Nat → UInt8) : Nat → Nat → UInt8 :=
  let oldWidth := old.width.toNat
  let oldHeight := old.height.toNat
  let newWidth := new.width.toNat
  let newHeight := new.height.toNat
  let down := Array.ofFn fun i : Fin newHeight => taps kernel oldHeight newHeight i
  let along := Array.ofFn fun i : Fin newWidth => taps kernel oldWidth newWidth i
  let tall : Array Float32 := Array.ofFn fun i : Fin (oldWidth * newHeight) =>
    let t := down.getD (i / oldWidth) ⟨0, []⟩
    t.mean fun y => (value (i % oldWidth) y).toFloat32
  let byte (x : Float32) : UInt8 := nearestByte x.toFloat
  let all : Array UInt8 := Array.ofFn fun i : Fin (newWidth * newHeight) =>
    let t := along.getD (i % newWidth) ⟨0, []⟩
    byte (t.mean fun x => tall.getD (i / newWidth * oldWidth + x) 0.0)
  fun x y => all.getD (y * newWidth + x) 0

end Resample

/-- The raster brought to another size; at its own size it stays as it is. -/
def Raster.resize (r : Raster) (size : Size) (kernel : Resample.Kernel) : Raster :=
  if size = r.size then r
  else
    let channel (k : Channel) : Nat → Nat → UInt8 :=
      Resample.plane kernel r.size size fun x y => (r.get x y).get k
    let red := channel .red
    let green := channel .green
    let blue := channel .blue
    let alpha := channel .alpha
    ofFn size fun x y => ⟨red x y, green x y, blue x y, alpha x y⟩

/-- The bitmap brought to another size. -/
def Bitmap.resize (b : Bitmap) (size : Size) (kernel : Resample.Kernel) : Bitmap :=
  b.mapRaster fun r => r.resize size kernel

end Darkroom
