import Darkroom.ChannelSet
import Darkroom.Color.Parser
import Darkroom.Geometry.Rect
import Darkroom.Keyword.Coding
import Darkroom.Keyword.Operation
import Darkroom.Table

/-!
# Image settings

The settings that hold for images read and made from now on.  Besides its typed fields this keeps
the text of every option that was set; drawing and quantization settings are rebuilt from those
texts, and so are the attributes copied onto images.
-/

namespace Darkroom

/-- Six numbers of an affine map: `sx, rx, ry, sy, tx, ty`. -/
structure Affine where
  /-- Horizontal scale. -/
  sx : Float := 1.0
  /-- Vertical shear. -/
  rx : Float := 0.0
  /-- Horizontal shear. -/
  ry : Float := 0.0
  /-- Vertical scale. -/
  sy : Float := 1.0
  /-- Horizontal shift. -/
  tx : Float := 0.0
  /-- Vertical shift. -/
  ty : Float := 0.0
deriving Repr, Inhabited

namespace Affine

/-- The map that changes nothing. -/
def identity : Affine := {}

/-- Six numbers separated by commas or blanks. -/
def parse? (text : String) : Option Affine :=
  match (Text.fields Text.isListSeparator text.toList).mapM Decimal.number? with
  | some [sx, rx, ry, sy, tx, ty] => some { sx, rx, ry, sy, tx, ty }
  | _ => none

/-- The six numbers. -/
def toList (a : Affine) : List Float :=
  [a.sx, a.rx, a.ry, a.sy, a.tx, a.ty]

end Affine

namespace Fuzz

/-- How far colors may differ: a percentage, or a distance between bytes; as a fraction of one. -/
def parse? (text : String) : Option Float :=
  let text := Text.trim text.toList
  let fraction? := match Text.before? ['%'] text with
    | some percent => (Decimal.number? percent).map (· / 100.0)
    | none => (Decimal.number? text).map (· / 255.0)
  fraction?.map fun x => clampFloat x 0.0 1.0

end Fuzz

namespace Density

/-- Pixels per unit across and down; one number stands for both. -/
def parse? (text : String) : Option (Float × Float) :=
  (Geometry.parse? text).map fun g => (g.rhoValue, g.sigma.getD g.rhoValue)

end Density

/-- The size of text that stands when nothing was set. -/
def defaultPointSize : Float := 12.0

/-- The settings for images. -/
structure ImageSettings where
  /-- The text of every option that was set. -/
  options : Table String := {}
  /-- Several images go into one file when its format allows it. -/
  adjoin : Bool := true
  /-- Edges are smoothed. -/
  antialias : Bool := true
  /-- A password. -/
  authenticate : Option String := none
  /-- The background color. -/
  background : Color := Color.white
  /-- The border color. -/
  borderColor : Color := ⟨0xdf, 0xdf, 0xdf, 255⟩
  /-- The color of frames. -/
  matteColor : Color := ⟨0xbd, 0xbd, 0xbd, 255⟩
  /-- The color that counts as transparent. -/
  transparentColor : Color := Color.transparent
  /-- The channels that operators act on. -/
  channels : ChannelSet := default
  /-- The color space. -/
  colorspace : Colorspace := default
  /-- The compression of files. -/
  compression : Compression := default
  /-- Debugging was asked for. -/
  debug : Bool := false
  /-- The text of the density. -/
  density : Option String := none
  /-- Bits per channel. -/
  depth : Option UInt32 := none
  /-- Reduced colors are dithered. -/
  dither : Bool := true
  /-- The byte order of files. -/
  endian : Endian := default
  /-- The part to read. -/
  extract : Option String := none
  /-- The font. -/
  font : Option String := none
  /-- How far colors may differ and still match, as a fraction. -/
  fuzz : Float := 0.0
  /-- The type of images. -/
  imageType : ImageType := default
  /-- The interlacing of files. -/
  interlace : Interlace := default
  /-- Progress was asked for. -/
  monitor : Bool := false
  /-- How a camera was held. -/
  orientation : Orientation := default
  /-- The canonical text of the page. -/
  page : Option String := none
  /-- Only sizes are read. -/
  ping : Bool := false
  /-- The size of text. -/
  pointSize : Float := defaultPointSize
  /-- The quality of files. -/
  quality : Option UInt32 := none
  /-- Warnings are not wanted. -/
  quiet : Bool := false
  /-- The sampling of chroma. -/
  samplingFactor : Option String := none
  /-- The number of the first scene. -/
  scene : UInt64 := 0
  /-- The number of scenes. -/
  sceneCount : UInt64 := 0
  /-- The text of the size. -/
  size : Option String := none
  /-- Writes are synchronized. -/
  synchronize : Bool := false
  /-- A texture. -/
  texture : Option String := none
  /-- The unit of densities. -/
  units : Units := default
  /-- Details were asked for. -/
  verbose : Bool := false
  /-- A view. -/
  view : Option String := none
  /-- What lies outside images. -/
  virtualPixel : VirtualPixel := default
deriving Inhabited

namespace ImageSettings

/-- The text of an option. -/
def option? (s : ImageSettings) (key : String) : Option String :=
  s.options.get? key

/-- Whether an option was set. -/
def hasOption (s : ImageSettings) (key : String) : Bool :=
  s.options.contains key

/-- The settings with the text of an option. -/
def setOption (s : ImageSettings) (key value : String) : ImageSettings :=
  { s with options := s.options.insert key value }

/-- The settings without an option. -/
def removeOption (s : ImageSettings) (key : String) : ImageSettings :=
  { s with options := s.options.erase key }

/-- An option read as a keyword; a word that is none counts as not set. -/
def keyword? (κ : Type) [Keyword κ] (s : ImageSettings) (key : String) : Option κ :=
  (s.option? key).bind Keyword.parse?

/-- An option read as a number. -/
def number? (s : ImageSettings) (key : String) : Option Float :=
  (s.option? key).bind fun text => Decimal.number? text.toList

/-- An option read as a color. -/
def color? (s : ImageSettings) (key : String) : Option Color :=
  (s.option? key).bind fun text => (Color.parse text).toOption

/-- The size that was set, in pixels; a missing height is the width. -/
def sizeInPixels? (s : ImageSettings) : Option Size := do
  let r ← Region.parse? (← s.size)
  let width ← r.width
  some ⟨truncUInt32 width, truncUInt32 (r.height.getD width)⟩

end ImageSettings
end Darkroom
