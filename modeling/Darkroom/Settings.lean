import Darkroom.Image
import Darkroom.Settings.Basic
import Darkroom.Settings.Drawing

/-!
# The settings together

The settings for images, for drawing and for reducing colors.  The last two can be rebuilt from the
first, those for reducing colors from the texts of options.

Before an operator runs, the attributes of its images are brought in line with the settings.  An
attribute for which nothing was set stays.
-/

namespace Darkroom

namespace ImageSettings

/-- A keyword attribute: the setting unless it is `undefined`. -/
def overrideWith {κ : Type} [DecidableEq κ] (undefined setting current : κ) : κ :=
  if setting = undefined then current else setting

/-- The delay and ticks that were set: the first number counts ticks, the second is their rate. -/
def timing (s : ImageSettings) (delay ticks : UInt64) : UInt64 × UInt64 :=
  match (s.option? "delay").bind Geometry.parse? with
  | none => (delay, ticks)
  | some g =>
      (truncUInt64 (greatestFloat g.rhoValue 0.0),
        match g.sigma with
        | some sigma => if 0.0 < sigma then truncUInt64 sigma else ticks
        | none => ticks)

/-- The image with its attributes in line with the settings. -/
def sync (s : ImageSettings) (image : Image) : Image :=
  let (delay, ticksPerSecond) := s.timing image.delay image.ticksPerSecond
  { image with
    background := s.background
    borderColor := s.borderColor
    matteColor := s.matteColor
    transparentColor := s.transparentColor
    channels := s.channels
    fuzz := s.fuzz
    compression := overrideWith .undefined s.compression image.compression
    endian := overrideWith .undefined s.endian image.endian
    interlace := overrideWith .undefined s.interlace image.interlace
    orientation := overrideWith .undefined s.orientation image.orientation
    units := overrideWith .undefined s.units image.units
    depth := s.depth.getD image.depth
    quality := s.quality.orElse fun _ => image.quality
    density := (s.density.bind Density.parse?).orElse fun _ => image.density
    page := (s.page.bind Page.parse?).getD image.page
    compose := (s.keyword? Compose "compose").getD image.compose
    gravity := (s.keyword? Gravity "gravity").getD image.gravity
    dispose := (s.keyword? Dispose "dispose").getD image.dispose
    filter := (s.keyword? Filter "filter").getD image.filter
    interpolate := (s.keyword? Interpolate "interpolate").getD image.interpolate
    iterations :=
      ((s.option? "loop").bind fun text => Integer.word64? text.toList).getD image.iterations
    delay
    ticksPerSecond }

end ImageSettings

/-- The settings for reducing colors. -/
structure QuantizingSettings where
  /-- The number of colors to keep. -/
  colorCount : UInt64 := 256
  /-- The depth of the color tree. -/
  treeDepth : UInt64 := 0
  /-- Reduced colors are dithered. -/
  dither : Bool := true
  /-- How they are dithered. -/
  ditherMethod : Dither := default
  /-- The color space to work in. -/
  colorspace : Option Colorspace := none
  /-- The error is measured. -/
  measureError : Bool := false
deriving DecidableEq, Inhabited

namespace QuantizingSettings

/-- The quantization settings that the image settings imply. -/
def ofImageSettings (s : ImageSettings) : QuantizingSettings :=
  let method? := s.keyword? Dither "dither"
  { dither := (method?.map (· != .none)).getD s.dither
    ditherMethod := method?.getD default
    colorspace := s.keyword? Colorspace "quantize"
    treeDepth := ((s.option? "treedepth").bind fun text => Integer.word64? text.toList).getD 0
    measureError := s.verbose }

end QuantizingSettings

/-- All settings. -/
structure Settings where
  /-- The settings for images. -/
  image : ImageSettings := {}
  /-- The settings for drawing. -/
  drawing : DrawingSettings := {}
  /-- The settings for reducing colors. -/
  quantizing : QuantizingSettings := {}
deriving Inhabited

namespace Settings

/-- The settings that the settings for images imply. -/
def rebuilt (image : ImageSettings) : Settings where
  image := image
  drawing := .ofImageSettings image
  quantizing := .ofImageSettings image

/-- The settings before anything was set. -/
def initial : Settings :=
  rebuilt {}

/-- The settings with the text of an option. -/
def setOption (s : Settings) (key value : String) : Settings :=
  { s with image := s.image.setOption key value }

/-- The settings without an option. -/
def removeOption (s : Settings) (key : String) : Settings :=
  { s with image := s.image.removeOption key }

/-- The settings with the text of an option, or without the option. -/
def putOption (s : Settings) (key : String) : Option String → Settings
  | some value => s.setOption key value
  | none => s.removeOption key

end Settings
end Darkroom
