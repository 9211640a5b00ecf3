import Darkroom.ChannelSet
import Darkroom.Digest.Sha256
import Darkroom.Keyword.Coding
import Darkroom.Keyword.Composition
import Darkroom.Keyword.Operation
import Darkroom.Pixels.Bitmap
import Darkroom.Table
import Darkroom.Text.Path

/-!
# Images

An image is a bitmap with everything that options know about it: where it came from, its page, the
attributes copied from the settings, its timing in an animation, and free properties.
-/

namespace Darkroom

/-- A bitmap and its attributes. -/
structure Image where
  /-- The pixels. -/
  bitmap : Bitmap
  /-- The tag of its format, such as `PNG`. -/
  format : String := ""
  /-- Where it was read from. -/
  filename : String := ""
  /-- Its number in the file it was read from. -/
  scene : UInt64 := 0
  /-- Its virtual canvas. -/
  page : Page := {}
  /-- Only the size is known; the pixels stand in. -/
  pinged : Bool := false
  /-- The background color. -/
  background : Color := Color.white
  /-- The border color. -/
  borderColor : Color := ⟨0xdf, 0xdf, 0xdf, 255⟩
  /-- The color of frames. -/
  matteColor : Color := ⟨0xbd, 0xbd, 0xbd, 255⟩
  /-- The color that counts as transparent. -/
  transparentColor : Color := Color.transparent
  /-- The color space. -/
  colorspace : Colorspace := default
  /-- How it is composed onto others. -/
  compose : Compose := default
  /-- The compression of its file. -/
  compression : Compression := default
  /-- Placement. -/
  gravity : Gravity := default
  /-- The interlacing of its file. -/
  interlace : Interlace := default
  /-- The byte order of its file. -/
  endian : Endian := default
  /-- How a camera was held. -/
  orientation : Orientation := default
  /-- The unit of its density. -/
  units : Units := default
  /-- What an animation does after showing it. -/
  dispose : Dispose := default
  /-- The resize filter. -/
  filter : Filter := default
  /-- How colors between pixels are found. -/
  interpolate : Interpolate := default
  /-- The channels that operators act on. -/
  channels : ChannelSet := default
  /-- Bits per channel. -/
  depth : UInt32 := 8
  /-- The quality of its file. -/
  quality : Option UInt32 := none
  /-- Pixels per unit, across and down. -/
  density : Option (Float × Float) := none
  /-- How long an animation shows it, in ticks. -/
  delay : UInt64 := 0
  /-- Ticks in a second. -/
  ticksPerSecond : UInt64 := 100
  /-- How often an animation repeats. -/
  iterations : UInt64 := 0
  /-- How far colors may differ and still match, as a fraction. -/
  fuzz : Float := 0.0
  /-- Changed since it was read. -/
  tainted : Bool := false
  /-- Properties by name. -/
  properties : Table String := {}
  /-- Artifacts by name. -/
  artifacts : Table String := {}

namespace Image

/-- A canvas of one color, at least one pixel each way. -/
def canvas (size : Size) (color : Color) : Image :=
  { bitmap := Bitmap.rgba (Raster.fill size.atLeastOne color), background := color }

instance : Inhabited Image := ⟨canvas ⟨1, 1⟩ Color.black⟩

/-- The size in pixels. -/
def size (image : Image) : Size :=
  image.bitmap.size

/-- The pixels with color and alpha. -/
def raster (image : Image) : Raster :=
  image.bitmap.raster

/-- Whether this is the null image, which separates sequences. -/
def isNull (image : Image) : Bool :=
  sameWord image.format "NULL"

/-- The image with other pixels; its attributes stay and it counts as changed. -/
def withBitmap (image : Image) (bitmap : Bitmap) : Image :=
  { image with bitmap, pinged := false, tainted := true }

/-- The image with other pixels, with color and alpha. -/
def withRaster (image : Image) (raster : Raster) : Image :=
  image.withBitmap (Bitmap.rgba raster)

/-- The bytes a signature is taken of: the size, low byte first, and every channel of every
pixel. -/
def signedBytes (image : Image) : List UInt8 :=
  let word (n : UInt32) : List UInt8 :=
    [n.toUInt8, (n >>> 8).toUInt8, (n >>> 16).toUInt8, (n >>> 24).toUInt8]
  word image.size.width ++ word image.size.height ++
    image.raster.toList.flatMap fun c => [c.red, c.green, c.blue, c.alpha]

/-- The digest of the pixels, the same for images with the same pixels. -/
def signature (image : Image) : String :=
  Sha256.hexDigest image.signedBytes

/-- The image without properties and profiles. -/
def strip (image : Image) : Image :=
  { image with
    properties := {}
    artifacts := image.artifacts.filterKeys fun key =>
      (Text.after? "profile:".toList key.toList).isNone }

/-- The extension of the file name, in lower case. -/
def extension? (image : Image) : Option String :=
  Path.loweredExtension? image.filename

/-- The image with a property. -/
def setProperty (image : Image) (key value : String) : Image :=
  { image with properties := image.properties.insert key value }

/-- The summary line: name and scene, format, size, page, depth and color space. -/
def summary (image : Image) : String :=
  let name :=
    if 0 < image.scene then image.filename ++ "[" ++ toString image.scene ++ "]"
    else image.filename
  let size := toString image.size.width ++ "x" ++ toString image.size.height
  let page := if image.page.isUnset then size ++ "+0+0" else image.page.text
  name ++ " " ++ image.format ++ " " ++ size ++ " " ++ page ++ " " ++ toString image.depth ++
    "-bit " ++ Keyword.name image.colorspace

end Image
end Darkroom
