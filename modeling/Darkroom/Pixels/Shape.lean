import Darkroom.Pixels.Compose
import Darkroom.Pixels.Tone

/-!
# Shapes of rasters

Reflections and turns, cutting and padding, borders and frames.  Each says where the color of a
place comes from.
-/

namespace Darkroom
namespace Raster

/-- Top and bottom exchanged. -/
def flip (r : Raster) : Raster :=
  ofFn r.size fun x y => r.get x (r.height - 1 - y)

/-- Left and right exchanged. -/
def flop (r : Raster) : Raster :=
  ofFn r.size fun x y => r.get (r.width - 1 - x) y

/-- A quarter turn clockwise. -/
def quarterTurn (r : Raster) : Raster :=
  ofFn r.size.swapped fun x y => r.get y (r.height - 1 - x)

/-- A half turn. -/
def halfTurn (r : Raster) : Raster :=
  ofFn r.size fun x y => r.get (r.width - 1 - x) (r.height - 1 - y)

/-- A quarter turn against the clock. -/
def quarterTurnBack (r : Raster) : Raster :=
  ofFn r.size.swapped fun x y => r.get (r.width - 1 - y) x

/-- Rows and columns exchanged. -/
def transpose (r : Raster) : Raster :=
  r.quarterTurn.flop

/-- Rows and columns exchanged, from the other corner. -/
def transverse (r : Raster) : Raster :=
  r.quarterTurnBack.flop

/-- The part inside a rectangle, cut to the raster. -/
def crop (r : Raster) (x y width height : UInt32) : Raster :=
  let left := min x r.size.width
  let top := min y r.size.height
  let size : Size :=
    ⟨min width (r.size.width - left), min height (r.size.height - top)⟩
  ofFn size fun column row => r.get (left.toNat + column) (top.toNat + row)

/-- Every pixel moved by an offset; what leaves on one side enters on the other. -/
def roll (r : Raster) (x y : Int64) : Raster :=
  let source (place : Nat) (offset : Int64) (side : Nat) : Nat :=
    ((Int64.ofNat place - offset).toInt % (side : Int)).toNat
  ofFn r.size fun column row => r.get (source column x r.width) (source row y r.height)

/-- Only the listed columns and rows. -/
def select (r : Raster) (columns rows : Array Nat) : Raster :=
  ofFn ⟨UInt32.ofNat columns.size, UInt32.ofNat rows.size⟩ fun x y =>
    r.get (columns.getD x 0) (rows.getD y 0)

/-- The numbers below a side that lie outside `start ..< start + length`. -/
def outside (side : Nat) (start : UInt32) (length : UInt32) : Array Nat :=
  ((List.range side).filter fun n =>
    !(start.toNat ≤ n && n < (start + length).toNat)).toArray

/-- The columns and rows of a rectangle cut away; none when nothing is left. -/
def chop? (r : Raster) (rect : Rect) : Option Raster :=
  let columns := outside r.width (narrow (max rect.x 0)) rect.width
  let rows := outside r.height (narrow (max rect.y 0)) rect.height
  if columns.isEmpty || rows.isEmpty then none else some (r.select columns rows)

/-- Columns and rows of one color inserted; a place outside is moved to the edge. -/
def splice (r : Raster) (region : Rect) (background : Color) : Raster :=
  let place (n : Int64) (side : UInt32) : UInt32 := narrow (max 0 (min n (wide side)))
  let left := place region.x r.size.width
  let top := place region.y r.size.height
  let right := left + region.width
  let bottom := top + region.height
  ofFn ⟨r.size.width + region.width, r.size.height + region.height⟩ fun column row =>
    let x := UInt32.ofNat column
    let y := UInt32.ofNat row
    if (left ≤ x && x < right) || (top ≤ y && y < bottom) then background
    else
      r.get (if right ≤ x then x - region.width else x).toNat
        (if bottom ≤ y then y - region.height else y).toNat

/-- The raster on a canvas of one color, with its corner at a place. -/
def onCanvas (r : Raster) (size : Size) (background : Color) (x y : Int64) (compose : Compose) :
    Raster :=
  r.drawOnto (fill size background) x y compose

/-- The size with a margin on every side. -/
def withMargin (size margin : Size) : Size :=
  ⟨size.width + 2 * margin.width, size.height + 2 * margin.height⟩

/-- The raster with a border around it. -/
def border (r : Raster) (margin : Size) (color : Color) (compose : Compose) : Raster :=
  r.onCanvas (withMargin r.size margin) color (wide margin.width) (wide margin.height) compose

/-- A color lit or shaded by a factor. -/
def shade (c : Color) (factor : Float) : Color :=
  Tone.mapColorChannels (fun _ v => truncByte (leastFloat (v.toFloat * factor) 255.0)) c

/-- The raster in a beveled frame. -/
def frame (r : Raster) (margin : Size) (outerBevel innerBevel : Int64) (color : Color)
    (compose : Compose) : Raster :=
  let size := withMargin r.size margin
  let outer := narrow (max outerBevel 0)
  let inner := narrow (max innerBevel 0)
  let canvas := ofFn size fun column row =>
    let x := UInt32.ofNat column
    let y := UInt32.ofNat row
    let fromRight := size.width - 1 - x
    let fromBottom := size.height - 1 - y
    let edge := min (min (min x y) fromRight) fromBottom
    let lit := x < fromRight && y < fromBottom
    if edge < outer then shade color (if lit then 1.3 else 0.7)
    else if min margin.width margin.height ≤ edge + inner && 0 < inner then
      shade color (if lit then 0.7 else 1.3)
    else color
  r.drawOnto canvas (wide margin.width) (wide margin.height) compose

/-- Lit left and top edges and shaded right and bottom ones, or the reverse. -/
def raised (r : Raster) (margin : Size) (raise : Bool) : Raster :=
  let light := if raise then 1.25 else 0.75
  let dark := if raise then 0.75 else 1.25
  let scale (factor : Float) (c : Color) : Color :=
    Tone.mapColorChannels
      (fun _ v => truncByte (clampFloat (v.toFloat * factor) 0.0 255.0)) c
  r.mapPlaces fun column row c =>
    let x := UInt32.ofNat column
    let y := UInt32.ofNat row
    if x < margin.width || y < margin.height then scale light c
    else if r.size.width ≤ x + margin.width || r.size.height ≤ y + margin.height then scale dark c
    else c

/-- The smallest rectangle around the pixels that differ from the first one; none when no pixel
does. -/
def trimBounds? (r : Raster) (fuzz : Float) : Option Rect :=
  let corner := r.get 0 0
  let differs (x y : Nat) : Bool := !(r.get x y).isNear corner fuzz
  let columns := (List.range r.width).filter fun x => (List.range r.height).any fun y => differs x y
  let rows := (List.range r.height).filter fun y => (List.range r.width).any fun x => differs x y
  match columns.head?, columns.getLast?, rows.head?, rows.getLast? with
  | some left, some right, some top, some bottom =>
      some ⟨Int64.ofNat left, Int64.ofNat top, UInt32.ofNat (right - left + 1),
        UInt32.ofNat (bottom - top + 1)⟩
  | _, _, _, _ => none

/-- The size of a raster turned by an angle with the given sine and cosine. -/
def turnedSize (size : Size) (sine cosine : Float) : Size :=
  let w := size.width.toFloat
  let h := size.height.toFloat
  let side (x : Float) : UInt32 := UInt32.ofNat (min (2 ^ 32 - 1) (ceilInt x).toNat)
  ⟨side (w * cosine.abs + h * sine.abs), side (w * sine.abs + h * cosine.abs)⟩

/-- The raster turned by an angle with the given sine and cosine, on a canvas of one color. -/
def turn (r : Raster) (sine cosine : Float) (background : Color) : Raster :=
  let w := r.size.width.toFloat
  let h := r.size.height.toFloat
  let out := turnedSize r.size sine cosine
  let centerX := w / 2.0
  let centerY := h / 2.0
  let originX := out.width.toFloat / 2.0
  let originY := out.height.toFloat / 2.0
  ofFn out.atLeastOne fun column row =>
    let dx := Float.ofNat column + 0.5 - originX
    let dy := Float.ofNat row + 0.5 - originY
    let x := dx * cosine + dy * sine + centerX
    let y := -dx * sine + dy * cosine + centerY
    if 0.0 ≤ x && 0.0 ≤ y && x < w && y < h then
      r.get (truncUInt32 x).toNat (truncUInt32 y).toNat
    else background

end Raster

namespace Image

/-- The image turned clockwise by an angle in degrees; quarter turns move pixels exactly. -/
def rotate (image : Image) (degrees : Float) (background : Color) : Image :=
  let angle := positiveRemainder degrees 360.0
  if angle == 0.0 then image
  else if angle == 90.0 then image.withBitmap (image.bitmap.mapRaster Raster.quarterTurn)
  else if angle == 180.0 then image.withBitmap (image.bitmap.mapRaster Raster.halfTurn)
  else if angle == 270.0 then image.withBitmap (image.bitmap.mapRaster Raster.quarterTurnBack)
  else
    let radians := angle * (Float.ofScientific 3141592653589793238462643383279 true 30 / 180.0)
    image.withRaster (image.raster.turn radians.sin radians.cos background)

/-- The page of a part of an image cut out at a place. -/
def cutPage (image : Image) (r : Rect) : Page where
  width := max image.page.width image.size.width
  height := max image.page.height image.size.height
  x := image.page.x + r.x
  y := image.page.y + r.y

/-- A part of an image; its page remembers where it was. -/
def cut (image : Image) (r : Rect) : Image :=
  let part := image.bitmap.mapRaster fun raster =>
    raster.crop (narrow r.x) (narrow r.y) r.width r.height
  { image.withBitmap part with page := image.cutPage r }

/-- The image without a margin; none when nothing would be left. -/
def shave? (image : Image) (margin : Size) : Option Image :=
  let size := image.size
  if size.width ≤ 2 * margin.width ∨ size.height ≤ 2 * margin.height then none
  else
    some (image.withBitmap (image.bitmap.mapRaster fun raster =>
      raster.crop margin.width margin.height (size.width - 2 * margin.width)
        (size.height - 2 * margin.height)))

/-- The image without the edges that look like its first pixel; none when all of it does. -/
def trim? (image : Image) (fuzz : Float) : Option Image :=
  (image.raster.trimBounds? fuzz).map image.cut

end Image
end Darkroom
