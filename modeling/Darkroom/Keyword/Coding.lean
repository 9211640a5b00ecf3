import Darkroom.Keyword.Basic

/-!
# How images are stored

The keyword families of this area, each with the spelling of its values.  The first value of a
family is the one that stands when nothing was set.
-/

namespace Darkroom

/-- The color model of an image. -/
inductive Colorspace where
  | srgb | rgb | gray | cmy | cmyk | hsb | hsl | lab | transparent | xyz | ycbcr | yuv
deriving DecidableEq, Repr, Inhabited

instance : Keyword Colorspace where
  family := "colorspace"
  all := [.srgb, .rgb, .gray, .cmy, .cmyk, .hsb, .hsl, .lab, .transparent, .xyz, .ycbcr, .yuv]
  name
    | .srgb => "sRGB"
    | .rgb => "RGB"
    | .gray => "Gray"
    | .cmy => "CMY"
    | .cmyk => "CMYK"
    | .hsb => "HSB"
    | .hsl => "HSL"
    | .lab => "Lab"
    | .transparent => "Transparent"
    | .xyz => "XYZ"
    | .ycbcr => "YCbCr"
    | .yuv => "YUV"
  aliases _ := []

/-- Compression of written files. -/
inductive Compression where
  | undefined | uncompressed | bzip | fax | group4 | jpeg | lossless | lzw | rle | zip
deriving DecidableEq, Repr, Inhabited

instance : Keyword Compression where
  family := "compress"
  all := [.undefined, .uncompressed, .bzip, .fax, .group4, .jpeg, .lossless, .lzw, .rle, .zip]
  name
    | .undefined => "Undefined"
    | .uncompressed => "None"
    | .bzip => "BZip"
    | .fax => "Fax"
    | .group4 => "Group4"
    | .jpeg => "JPEG"
    | .lossless => "LosslessJPEG"
    | .lzw => "LZW"
    | .rle => "RLE"
    | .zip => "Zip"
  aliases _ := []

/-- Byte order of written files. -/
inductive Endian where
  | undefined | lsb | msb
deriving DecidableEq, Repr, Inhabited

instance : Keyword Endian where
  family := "endian"
  all := [.undefined, .lsb, .msb]
  name
    | .undefined => "Undefined"
    | .lsb => "LSB"
    | .msb => "MSB"
  aliases _ := []

/-- Interlacing of written files. -/
inductive Interlace where
  | undefined | none | line | plane | partition | gif | jpeg | png
deriving DecidableEq, Repr, Inhabited

instance : Keyword Interlace where
  family := "interlace"
  all := [.undefined, .none, .line, .plane, .partition, .gif, .jpeg, .png]
  name
    | .undefined => "Undefined"
    | .none => "None"
    | .line => "Line"
    | .plane => "Plane"
    | .partition => "Partition"
    | .gif => "GIF"
    | .jpeg => "JPEG"
    | .png => "PNG"
  aliases
    | .none => ["NoInterlace"]
    | _ => []

/-- Where the first row and column of the pixels are. -/
inductive Orientation where
  | undefined | topLeft | topRight | bottomRight | bottomLeft | leftTop | rightTop | rightBottom
  | leftBottom
deriving DecidableEq, Repr, Inhabited

instance : Keyword Orientation where
  family := "orientation"
  all := [.undefined, .topLeft, .topRight, .bottomRight, .bottomLeft, .leftTop, .rightTop,
    .rightBottom, .leftBottom]
  name
    | .undefined => "Undefined"
    | .topLeft => "TopLeft"
    | .topRight => "TopRight"
    | .bottomRight => "BottomRight"
    | .bottomLeft => "BottomLeft"
    | .leftTop => "LeftTop"
    | .rightTop => "RightTop"
    | .rightBottom => "RightBottom"
    | .leftBottom => "LeftBottom"
  aliases _ := []

/-- The unit of a density. -/
inductive Units where
  | undefined | pixelsPerInch | pixelsPerCentimeter
deriving DecidableEq, Repr, Inhabited

instance : Keyword Units where
  family := "units"
  all := [.undefined, .pixelsPerInch, .pixelsPerCentimeter]
  name
    | .undefined => "Undefined"
    | .pixelsPerInch => "PixelsPerInch"
    | .pixelsPerCentimeter => "PixelsPerCentimeter"
  aliases _ := []

/-- The kind of pixels of an image. -/
inductive ImageType where
  | undefined | bilevel | grayscale | grayscaleAlpha | palette | paletteAlpha | trueColor
  | trueColorAlpha | colorSeparation | optimize
deriving DecidableEq, Repr, Inhabited

instance : Keyword ImageType where
  family := "type"
  all := [.undefined, .bilevel, .grayscale, .grayscaleAlpha, .palette, .paletteAlpha, .trueColor,
    .trueColorAlpha, .colorSeparation, .optimize]
  name
    | .undefined => "Undefined"
    | .bilevel => "Bilevel"
    | .grayscale => "Grayscale"
    | .grayscaleAlpha => "GrayscaleAlpha"
    | .palette => "Palette"
    | .paletteAlpha => "PaletteAlpha"
    | .trueColor => "TrueColor"
    | .trueColorAlpha => "TrueColorAlpha"
    | .colorSeparation => "ColorSeparation"
    | .optimize => "Optimize"
  aliases
    | .grayscaleAlpha => ["GrayscaleMatte"]
    | .paletteAlpha => ["PaletteMatte"]
    | .trueColorAlpha => ["TrueColorMatte"]
    | _ => []

/-- The rendering intent of a color profile. -/
inductive Intent where
  | undefined | absolute | perceptual | relative | saturation
deriving DecidableEq, Repr, Inhabited

instance : Keyword Intent where
  family := "intent"
  all := [.undefined, .absolute, .perceptual, .relative, .saturation]
  name
    | .undefined => "Undefined"
    | .absolute => "Absolute"
    | .perceptual => "Perceptual"
    | .relative => "Relative"
    | .saturation => "Saturation"
  aliases _ := []

end Darkroom
