import Darkroom.Pixels.Compose
import Darkroom.Pixels.Palette
import Darkroom.Pixels.Resample
import Darkroom.Pixels.Tone

/-!
# Layers

Operators on sequences of images: side by side, flattened onto one canvas, frame over frame, blended
into each other, and taken apart into channels and put together again.  Every sequence here is not
empty; its first image gives its attributes to the result.
-/

namespace Darkroom
namespace Layers

/-- The page and size of every image. -/
def pages (images : List Image) : List (Page × Size) :=
  images.map fun image => (image.page, image.size)

/-- The length of images in a row with a gap between them, and the breadth of the broadest. -/
def extent (vertical : Bool) (gap : Int64) (images : List Image) : Int64 × Int64 :=
  let along (image : Image) : Int64 :=
    wide (if vertical then image.size.height else image.size.width)
  let across (image : Image) : Int64 :=
    wide (if vertical then image.size.width else image.size.height)
  let length := images.foldl (fun n image => n + along image) 0
  let breadth := images.foldl (fun n image => max n (across image)) 0
  (max 1 (length + gap * (Int64.ofNat images.length - 1)), breadth)

/-- The images in a row, top to bottom or left to right, with a gap between them. -/
def append (vertical : Bool) (gap : Int64) (first : Image) (rest : List Image) : Image :=
  let images := first :: rest
  let (length, breadth) := extent vertical gap images
  let size : Size :=
    if vertical then ⟨narrow breadth, narrow length⟩ else ⟨narrow length, narrow breadth⟩
  let draw (state : Raster × Int64) (image : Image) : Raster × Int64 :=
    let (canvas, place) := state
    let (x, y) := if vertical then (0, place) else (place, 0)
    let step := wide (if vertical then image.size.height else image.size.width)
    (image.raster.drawOnto canvas x y .over, place + (step + gap))
  let (canvas, _) := images.foldl draw (Raster.fill size first.background, 0)
  { first.withRaster canvas with page := {} }

/-- The page size of an image, or its own size when the page has none. -/
def canvasSize (image : Image) : Size :=
  if 0 < image.page.width ∧ 0 < image.page.height then ⟨image.page.width, image.page.height⟩
  else image.size

/-- The canvas that a merging method draws onto. -/
def canvasOf (method : LayerMethod) (first : Image) (rest : List Image) : Rect :=
  let bounds := layerBounds (pages (first :: rest))
  match method with
  | .flatten =>
      let size := canvasSize first
      ⟨0, 0, size.width, size.height⟩
  | .mosaic =>
      ⟨0, 0, narrow (max 1 (bounds.x + wide bounds.width)),
        narrow (max 1 (bounds.y + wide bounds.height))⟩
  | _ => bounds

/-- The images composed in order onto one canvas, each at its page offset. -/
def flatten (method : LayerMethod) (first : Image) (rest : List Image) : Image :=
  let bounds := canvasOf method first rest
  let blank := Raster.fill (Size.atLeastOne ⟨bounds.width, bounds.height⟩) first.background
  let canvas := (first :: rest).foldl
    (fun canvas image =>
      image.raster.drawOnto canvas (image.page.x - bounds.x) (image.page.y - bounds.y)
        image.compose)
    blank
  { first.withRaster canvas with page := ⟨bounds.width, bounds.height, bounds.x, bounds.y⟩ }

/-- The frames of an animation drawn out: each over all before it. -/
def coalesceOnto (size : Size) (canvas : Raster) : List Image → List Image
  | [] => []
  | image :: rest =>
      let canvas := image.raster.drawOnto canvas image.page.x image.page.y .over
      { image.withRaster canvas with page := ⟨size.width, size.height, 0, 0⟩ } ::
        coalesceOnto size canvas rest

/-- The frames of an animation, each drawn over all before it on the canvas of the first. -/
def coalesce (first : Image) (rest : List Image) : List Image :=
  let size := canvasSize first
  coalesceOnto size (Raster.fill size Color.transparent) (first :: rest)

/-- The values of one place combined by an operation. -/
def combineValues (operator : Evaluation) (values : List Float) : Float :=
  match operator with
  | .mean => values.foldl (· + ·) 0.0 / Float.ofNat values.length
  | .median => (values.mergeSort (· ≤ ·)).getD (values.length / 2) 0.0
  | _ =>
      match values with
      | [] => 0.0
      | v :: rest => rest.foldl (Tone.evaluate operator) v

/-- All images combined value by value by an operation, at the size of the first. -/
def evaluateSequence (operator : Evaluation) (first : Image) (rest : List Image) : Image :=
  let frames := (first :: rest).map fun image =>
    (image.bitmap.resize first.size Resample.nearest).raster
  first.withRaster (Raster.ofFn first.size fun x y =>
    let value (k : Channel) : UInt8 :=
      nearestByte (combineValues operator (frames.map fun f => ((f.get x y).get k).toFloat))
    ⟨value .red, value .green, value .blue, value .alpha⟩)

/-- The image a part of the way from one to another. -/
def between (a b : Image) (t : Float) : Image :=
  let side (m n : UInt32) : UInt32 := nearestUInt32 (m.toFloat * (1.0 - t) + n.toFloat * t)
  let size : Size := ⟨side a.size.width b.size.width, side a.size.height b.size.height⟩
  let before := (a.bitmap.resize size Resample.triangle).raster
  let after := (b.bitmap.resize size Resample.triangle).raster
  a.withRaster (Raster.ofFn size.atLeastOne fun x y =>
    let p := before.get x y
    let q := after.get x y
    ⟨Tone.blend p.red q.red t, Tone.blend p.green q.green t, Tone.blend p.blue q.blue t,
      Tone.blend p.alpha q.alpha t⟩)

/-- The images with a number of blends between each and the next. -/
def morph (frames : Nat) : List Image → List Image
  | a :: b :: rest =>
      let steps := (List.range frames).map fun i =>
        between a b (Float.ofNat (i + 1) / Float.ofNat (frames + 1))
      a :: steps ++ morph frames (b :: rest)
  | images => images

/-- The place in a table of `span + 1` entries that a value looks up. -/
def lookupPlace (span : UInt32) (v : UInt8) : UInt32 :=
  (v.toUInt32 * span + 127) / 255

/-- The entry of a lookup table for a value: along its longer side. -/
def lookupEntry (table : Raster) (v : UInt8) : Color :=
  if table.size.height ≤ table.size.width then
    table.get (lookupPlace (table.size.width - 1) v).toNat 0
  else table.get 0 (lookupPlace (table.size.height - 1) v).toNat

/-- The image with its values looked up in a table. -/
def lookup (image table : Image) : Image :=
  image.withRaster (image.raster.map fun c =>
    image.valueChannels.foldl
      (fun c k => c.put k ((lookupEntry table.raster (c.get k)).get k)) c)

/-- The channels of an image as gray images. -/
def separate (channels : ChannelSet) (image : Image) : List Image :=
  channels.members.map fun k =>
    { image.mapColors fun c => Color.gray (c.get k) with colorspace := .gray }

/-- Up to four images put together, each as one channel. -/
def combine (space : Colorspace) (first : Image) (rest : List Image) : Image :=
  let planes := ((first :: rest).take 4).map fun image =>
    (image.bitmap.resize first.size Resample.nearest).raster
  let assembled := Raster.ofFn first.size fun x y =>
    (Channel.all.zip planes).foldl (fun c (k, plane) => c.put k (plane.get x y).red) Color.black
  { first.withRaster assembled with colorspace := space }

/-- The second image drawn onto the first. -/
def composite (compose : Compose) (x y : Int64) (destination source : Image) : Image :=
  destination.withRaster (source.raster.drawOnto destination.raster x y compose)

/-- Each destination with its source drawn onto it; the last source serves all that are left. -/
def compositePairs (compose : Compose) (x y : Int64) (destinations sources : List Image) :
    List Image :=
  destinations.mapIdx fun i destination =>
    match sources[min i (sources.length - 1)]? with
    | some source =>
        composite compose (x + source.page.x - destination.page.x)
          (y + source.page.y - destination.page.y) destination source
    | none => destination

/-- The images without those that repeat the one kept before, given the identity of that. -/
def removeRepeatsAfter (previous : Option (Page × String)) : List Image → List Image
  | [] => []
  | image :: rest =>
      let identity := (image.page, image.signature)
      if previous = some identity then removeRepeatsAfter previous rest
      else image :: removeRepeatsAfter (some identity) rest

/-- The images without those that repeat the page and pixels of the one kept before. -/
def removeRepeats : List Image → List Image :=
  removeRepeatsAfter none

/-- The images that are shown for some time; all of them when none is. -/
def removeInstant (images : List Image) : List Image :=
  let kept := images.filter fun image => 0 < image.delay
  if kept.isEmpty then images else kept

/-- The images with their pages cut to the box around all of them. -/
def trimBounds (images : List Image) : List Image :=
  let bounds := layerBounds (pages images)
  images.map fun image =>
    { image with
      page := ⟨bounds.width, bounds.height, image.page.x - bounds.x, image.page.y - bounds.y⟩ }

end Layers
end Darkroom
