import Darkroom.Image

/-!
# Tone curves

A tone curve maps channel values, as fractions of the greatest, to channel values.  It acts on the
selected channels, and on alpha only when a part of the channels was selected.  Curves that need no
more than field arithmetic are written over any scalars.
-/

namespace Darkroom

/-- The weight of a color as gray, up to 255. -/
def Color.luma (c : Color) : Float :=
  0.2126 * c.red.toFloat + 0.7152 * c.green.toFloat + 0.0722 * c.blue.toFloat

/-- The channels that tone curves act on: the colors when every channel is selected, else the
selection. -/
def Image.valueChannels (image : Image) : List Channel :=
  if image.channels = .full then Channel.colors else image.channels.members

/-- The color with some of its channels changed. -/
def Color.mapChannels (channels : List Channel) (f : UInt8 → UInt8) (c : Color) : Color :=
  channels.foldl (fun c k => c.put k (f (c.get k))) c

/-- The image with the values of its value channels changed. -/
def Image.mapValues (f : UInt8 → UInt8) (image : Image) : Image :=
  image.withRaster (image.raster.map (Color.mapChannels image.valueChannels f))

/-- The image with every color changed. -/
def Image.mapColors (f : Color → Color) (image : Image) : Image :=
  image.withRaster (image.raster.map f)

namespace Tone

section Curves

variable {α : Type} [Scalar α]

/-- A curve on bytes: the value as a fraction, its image, and the nearest byte. -/
def onByte (curve : α → α) (v : UInt8) : UInt8 :=
  Scalar.toByte (curve (Scalar.whole v.toNat / Scalar.whole 255) * Scalar.whole 255)

/-- The curve that maps `black .. white` linearly onto everything. -/
def stretch (black white v : α) : α :=
  let span := Scalar.greatest (Scalar.magnitude (white - black)) Scalar.tiny
  Scalar.clamp ((v - black) / span) (Scalar.whole 0) (Scalar.whole 1)

/-- The curve with `steps + 1` levels. -/
def posterize (steps v : α) : α :=
  Scalar.nearest (v * steps) / steps

/-- The byte curve that maps the bytes `black .. white` linearly onto all bytes. -/
def stretchBytes (α : Type) [Scalar α] (black white : Nat) : UInt8 → UInt8 :=
  onByte fun v =>
    stretch (Scalar.whole black / Scalar.whole 255 : α) (Scalar.whole white / Scalar.whole 255) v

/-- The byte curve with a number of levels, at least two. -/
def posterizeBytes (α : Type) [Scalar α] (levels : Nat) : UInt8 → UInt8 :=
  onByte (posterize (Scalar.whole (max levels 2 - 1) : α))

end Curves

/-- The curve that maps `black .. white` onto everything with a gamma, or everything into it. -/
def level (black white gamma : Float) (invert : Bool) (v : Float) : Float :=
  let b := black / 255.0
  let w := white / 255.0
  let gamma := if gamma ≤ 0.0 then 1.0 else gamma
  if invert then b + v.pow gamma * (w - b) else (stretch b w v).pow (1.0 / gamma)

/-- The least and greatest value of the value channels. -/
def bounds (image : Image) : UInt8 × UInt8 :=
  let channels := image.valueChannels
  image.raster.toList.foldl
    (fun range c =>
      channels.foldl (fun (low, high) k => (min low (c.get k), max high (c.get k))) range)
    (255, 0)

/-- The image with its values stretched over everything, in the arithmetic of `α`. -/
def autoLevel (α : Type) [Scalar α] (image : Image) : Image :=
  let (low, high) := bounds image
  image.mapValues (stretchBytes α low.toNat high.toNat)

/-- The gray level of a color. -/
def lumaLevel (c : Color) : Nat :=
  (nearestByte c.luma).toNat

/-- The counts of gray levels with one more color counted. -/
def countLevel (counts : Array Nat) (c : Color) : Array Nat :=
  counts.modify (lumaLevel c) (· + 1)

/-- How many colors there are of each gray level. -/
def histogram (colors : List Color) : Array Nat :=
  colors.foldl countLevel (Array.replicate 256 0)

/-- How many levels, given the number of colors of each, are passed until the colors seen are more
than a limit. -/
def discarded (limit : Float) (seen : Nat) : List Nat → Nat
  | [] => 0
  | count :: rest =>
      if Float.ofNat (seen + count) ≤ limit then discarded limit (seen + count) rest + 1 else 0

/-- The darkest and brightest gray level left after so many pixels are discarded at each end; what
is discarded at the bright end ends at the darkest level left. -/
def histogramBounds (colors : List Color) (black white : Float) : Nat × Nat :=
  let counts := (histogram colors).toList
  let low := discarded black 0 (counts.take 255)
  let high := 255 - discarded white 0 (counts.drop (low + 1)).reverse
  (low, high)

/-- The image with its gray levels stretched over everything after the ends are discarded. -/
def stretchContrast (black white : Float) (image : Image) : Image :=
  let (low, high) := histogramBounds image.raster.toList black white
  image.mapValues (stretchBytes Float low high)

/-- The mean gray level as a fraction. -/
def meanLuma (image : Image) : Float :=
  let count := Float.ofNat (max 1 image.size.area)
  image.raster.toList.foldl (fun sum c => sum + c.luma) 0.0 / count / 255.0

/-- The image with the gamma that brings its mean gray level to one half; a black or white image
stays. -/
def autoGamma? (image : Image) : Option Image :=
  let mean := meanLuma image
  if mean ≤ 0.0 ∨ 1.0 ≤ mean then none
  else
    let gamma := (0.5 : Float).log / mean.log
    some (image.mapValues (onByte fun v : Float => v.pow gamma))

/-- The image with each value channel spread evenly over its values. -/
def equalize (image : Image) : Image :=
  let count := Float.ofNat (max 1 image.size.area)
  let colors := image.raster.toList
  let curve (k : Channel) (v : UInt8) : UInt8 :=
    nearestByte (Float.ofNat (colors.countP fun c => c.get k ≤ v) / count * 255.0)
  let table (k : Channel) : Array UInt8 :=
    Array.ofFn fun i : Fin 256 => curve k (UInt8.ofNat i)
  let tables := image.valueChannels.map fun k => (k, table k)
  image.withRaster (image.raster.map fun c =>
    tables.foldl (fun c (k, curve) => c.put k (curve.getD (c.get k).toNat 0)) c)

/-- An operation on a value and an argument, both up to 255. -/
def evaluate (operator : Evaluation) (v argument : Float) : Float :=
  let words (f : UInt32 → UInt32 → UInt32) : Float :=
    (f (truncUInt32 v) (truncUInt32 argument)).toFloat
  match operator with
  | .add => v + argument
  | .subtract => v - argument
  | .multiply => v * argument
  | .divide => if argument == 0.0 then v else v / argument
  | .absolute => (v + argument).abs
  | .max => greatestFloat v argument
  | .min => leastFloat v argument
  | .assign => argument
  | .power => v.pow (argument / 255.0)
  | .bitAnd => words (· &&& ·)
  | .bitOr => words (· ||| ·)
  | .bitXor => words (· ^^^ ·)
  | .mean | .median => (v + argument) / 2.0

/-- The curve of an operation with a fixed argument. -/
def evaluateCurve (operator : Evaluation) (argument v : Float) : Float :=
  evaluate operator (v * 255.0) argument / 255.0

/-- The angle of the unit slope. -/
def quarterPi : Float := 0.785398163397448309615660845819875721

/-- The curve that shifts and tilts around the middle, both in hundredths. -/
def brightnessContrast (brightness contrast v : Float) : Float :=
  let slope := ((contrast / 100.0 + 1.0) * quarterPi).tan
  (v - 0.5) * slope + 0.5 + brightness / 100.0

/-- The S-shaped curve, or its inverse. -/
def sigmoidal (sharpen : Bool) (contrast midpoint v : Float) : Float :=
  let a := greatestFloat contrast epsilon
  let b := midpoint / 255.0
  let sigmoid (x : Float) : Float := 1.0 / (1.0 + (a * (b - x)).exp)
  let low := sigmoid 0.0
  let high := sigmoid 1.0
  if sharpen then (sigmoid v - low) / (high - low)
  else
    let y := v * (high - low) + low
    b - (greatestFloat (1.0 / y - 1.0) epsilon).log / a

/-- The side of the least cube with at least so many cells, for numbers up to `2 ^ 66`. -/
def cubeSide (cells : Nat) : Nat :=
  (List.range 22).foldr
    (fun i side => if (side + 2 ^ i) ^ 3 < cells then side + 2 ^ i else side) 0 + 1

/-- The number of levels of each channel when colors are reduced to a number. -/
def quantizeLevels (colors : UInt64) : Float :=
  Float.ofNat (cubeSide (max colors.toNat 2))

/-- A hundredth part of the range, kept inside it. -/
def fractionOfHundred (percent : Float) : Float :=
  clampFloat (percent / 100.0) 0.0 1.0

/-- A byte on the way to another, by a fraction. -/
def blend (v target : UInt8) (t : Float) : UInt8 :=
  nearestByte (v.toFloat * (1.0 - t) + target.toFloat * t)

/-- The color with its color channels mapped. -/
def mapColorChannels (f : Channel → UInt8 → UInt8) (c : Color) : Color :=
  { c with red := f .red c.red, green := f .green c.green, blue := f .blue c.blue }

/-- A color on the way to another, by a percentage for each channel. -/
def colorize (red green blue : Float) (fill c : Color) : Color :=
  mapColorChannels
    (fun k v =>
      let percent := match k with
        | .red => red
        | .green => green
        | _ => blue
      blend v (fill.get k) (fractionOfHundred percent))
    c

/-- A color with its midtones moved toward another; black and white stay. -/
def tint (amount : Float) (fill c : Color) : Color :=
  let weight := fractionOfHundred amount
  let l := c.luma / 255.0
  let slope := 2.0 * l - 1.0
  let t := weight * (1.0 - slope * slope)
  mapColorChannels
    (fun k v => nearestByte (v.toFloat + ((fill.get k).toFloat - 127.5) * t)) c

/-- A color with each channel stretched between two colors, or the reverse. -/
def levelColors (black white : Color) (invert : Bool) (c : Color) : Color :=
  mapColorChannels
    (fun k v =>
      let b := (black.get k).toFloat
      let w := (white.get k).toFloat
      let v := v.toFloat
      nearestByte
        (if invert then b + v / 255.0 * (w - b)
        else (v - b) / greatestFloat (w - b).abs epsilon * 255.0))
    c

/-- A color moved toward a scene by moonlight. -/
def blueShift (factor : Float) (c : Color) : Color :=
  let r := c.red.toFloat
  let g := c.green.toFloat
  let b := c.blue.toFloat
  let low := leastFloat (leastFloat r g) b
  let high := greatestFloat (greatestFloat r g) b
  mapColorChannels
    (fun _ v =>
      let v := 0.5 * (v.toFloat + factor * low)
      nearestByte (0.5 * (v + factor * high)))
    c

/-- A color in the browns of old photographs. -/
def sepia (threshold : Float) (c : Color) : Color :=
  let t := threshold
  let i := c.luma
  let cut (x : Float) : UInt8 := truncByte (clampFloat x 0.0 255.0)
  { c with
    red := cut (if t < i then 255.0 else i + 255.0 - t)
    green := cut (if 7.0 * t / 6.0 < i then 255.0 else i + 255.0 - 7.0 * t / 6.0)
    blue := cut (if i < t / 6.0 then 0.0 else i - t / 6.0) }

/-- White above a gray level, black up to it. -/
def threshold (level : Float) (c : Color) : Color :=
  let v : UInt8 := if level < c.luma then 255 else 0
  ⟨v, v, v, c.alpha⟩

/-- The contrast of a byte changed by a percentage, in single precision. -/
def contrastByte (percent : Float32) (v : UInt8) : UInt8 :=
  let slope := (100.0 + percent) / 100.0
  let x := ((v.toFloat32 / 255.0 - 0.5) * (slope * slope) + 0.5) * 255.0
  truncByte (clampFloat x.toFloat 0.0 255.0)

end Tone
end Darkroom
