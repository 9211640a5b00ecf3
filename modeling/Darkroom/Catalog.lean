import Darkroom.Invocation

/-!
# The catalogue of options

For every option the number of its arguments with either sign, and how it is applied.  An option
can be a setting and an operator on images at once.
-/

namespace Darkroom

/-- How an option is applied. -/
inductive OptionKind where
  /-- To the session as a whole. -/
  | special
  /-- As a setting. -/
  | setting
  /-- To every image. -/
  | image
  /-- As a setting, and to every image there is. -/
  | settingAndImage
  /-- To the list of images. -/
  | list
deriving DecidableEq, Repr

namespace OptionKind

/-- Whether the option is a setting. -/
def isSetting : OptionKind → Bool
  | setting | settingAndImage => true
  | _ => false

/-- Whether the option is an operator on one image. -/
def isImage : OptionKind → Bool
  | image | settingAndImage => true
  | _ => false

end OptionKind

/-- An option of the catalogue. -/
structure CatalogEntry where
  /-- The name without a sign. -/
  name : String
  /-- The number of arguments when it is applied. -/
  arguments : Nat
  /-- The number of arguments when it is taken back. -/
  takenBack : Nat
  /-- How it is applied. -/
  kind : OptionKind
deriving DecidableEq, Repr

namespace CatalogEntry

/-- The number of arguments with a sign. -/
def argumentCount (e : CatalogEntry) (normal : Bool) : Nat :=
  if normal then e.arguments else e.takenBack

end CatalogEntry

namespace Catalog

/-- An option with an argument unless it is taken back. -/
def one (name : String) (kind : OptionKind) : CatalogEntry :=
  ⟨name, 1, 0, kind⟩

/-- An option without arguments. -/
def bare (name : String) (kind : OptionKind) : CatalogEntry :=
  ⟨name, 0, 0, kind⟩

/-- Every option, in the order of the catalogue. -/
def entries : List CatalogEntry :=
  [ bare "(" .special, bare ")" .special, bare "\x7b" .special, bare "\x7d" .special,
    ⟨"--", 1, 1, .special⟩, one "clone" .special, one "list" .special, bare "noop" .special,
    one "read" .special, ⟨"sans", 1, 1, .special⟩, bare "sans0" .special,
    ⟨"sans2", 2, 2, .special⟩, bare "adjoin" .setting, one "affine" .setting,
    bare "antialias" .setting, one "attenuate" .setting, one "authenticate" .setting,
    one "background" .setting, one "bias" .setting, bare "black-point-compensation" .setting,
    one "blue-primary" .setting, one "bordercolor" .setting, one "box" .setting,
    one "cache" .setting, one "caption" .setting, one "comment" .setting, one "compose" .setting,
    one "compress" .setting, one "debug" .setting, ⟨"define", 1, 1, .setting⟩,
    one "delay" .setting, one "density" .setting, one "direction" .setting,
    one "display" .setting, one "dispose" .setting, one "dither" .setting,
    one "encoding" .setting, one "endian" .setting, one "extract" .setting,
    one "family" .setting, one "fill" .setting, one "filter" .setting, one "font" .setting,
    one "format" .setting, one "fuzz" .setting, one "gravity" .setting,
    one "green-primary" .setting, one "intent" .setting, one "interlace" .setting,
    one "interline-spacing" .setting, one "interpolate" .setting,
    one "interword-spacing" .setting, one "kerning" .setting, one "label" .setting,
    one "log" .setting, one "loop" .setting, one "mattecolor" .setting, bare "monitor" .setting,
    one "orient" .setting, one "page" .setting, bare "ping" .setting, one "pointsize" .setting,
    one "precision" .setting, one "preview" .setting, one "quality" .setting,
    one "quantize" .setting, bare "quiet" .setting, one "red-primary" .setting,
    bare "render" .setting, bare "respect-parenthesis" .setting, one "sampling-factor" .setting,
    one "scene" .setting, one "seed" .setting, one "size" .setting, one "stretch" .setting,
    one "stroke" .setting, one "strokewidth" .setting, one "style" .setting,
    bare "synchronize" .setting, bare "taint" .setting, one "texture" .setting,
    one "tile" .setting, one "tile-offset" .setting, one "transparent-color" .setting,
    one "treedepth" .setting, one "undercolor" .setting, one "units" .setting,
    one "view" .setting, one "virtual-pixel" .setting, one "weight" .setting,
    one "white-point" .setting, one "channel" .settingAndImage,
    one "colorspace" .settingAndImage, one "depth" .settingAndImage,
    bare "monochrome" .settingAndImage, one "type" .settingAndImage,
    bare "verbose" .settingAndImage, one "adaptive-blur" .image, one "adaptive-resize" .image,
    one "adaptive-sharpen" .image, one "alpha" .image, ⟨"annotate", 2, 2, .image⟩,
    bare "auto-gamma" .image, bare "auto-level" .image, bare "auto-orient" .image,
    one "black-threshold" .image, one "blue-shift" .image, one "blur" .image,
    one "border" .image, one "brightness-contrast" .image, one "cdl" .image,
    one "charcoal" .image, one "chop" .image, bare "clamp" .image, one "colorize" .image,
    one "color-matrix" .image, one "colors" .image, bare "contrast" .image,
    one "contrast-stretch" .image, one "convolve" .image, one "crop" .image, one "cycle" .image,
    one "decipher" .image, one "deskew" .image, bare "despeckle" .image,
    ⟨"distort", 2, 2, .image⟩, one "draw" .image, one "edge" .image, one "emboss" .image,
    one "encipher" .image, bare "enhance" .image, bare "equalize" .image,
    ⟨"evaluate", 2, 2, .image⟩, one "extent" .image, one "features" .image, bare "flip" .image,
    ⟨"floodfill", 2, 2, .image⟩, bare "flop" .image, one "frame" .image,
    ⟨"function", 2, 2, .image⟩, ⟨"gamma", 1, 1, .image⟩, one "gaussian" .image,
    one "gaussian-blur" .image, one "geometry" .image, one "highlight-color" .image,
    bare "identify" .image, one "implode" .image, one "interpolative-resize" .image,
    one "lat" .image, ⟨"level", 1, 1, .image⟩, ⟨"level-colors", 1, 1, .image⟩,
    one "linear-stretch" .image, one "liquid-rescale" .image, one "lowlight-color" .image,
    bare "matte" .image, one "median" .image, one "mode" .image, one "modulate" .image,
    ⟨"morphology", 2, 2, .image⟩, one "motion-blur" .image, bare "negate" .image,
    ⟨"noise", 1, 1, .image⟩, bare "normalize" .image, ⟨"opaque", 1, 1, .image⟩,
    one "ordered-dither" .image, one "paint" .image, one "polaroid" .image,
    one "posterize" .image, one "radial-blur" .image, ⟨"raise", 1, 1, .image⟩,
    one "random-threshold" .image, one "repage" .image, one "resample" .image,
    one "resize" .image, one "roll" .image, one "rotate" .image, one "sample" .image,
    one "scale" .image, one "segment" .image, one "selective-blur" .image,
    bare "separate" .image, one "sepia-tone" .image, ⟨"set", 2, 1, .image⟩,
    ⟨"shade", 1, 1, .image⟩, one "shadow" .image, one "sharpen" .image, one "shave" .image,
    one "shear" .image, ⟨"sigmoidal-contrast", 1, 1, .image⟩, one "sketch" .image,
    one "solarize" .image, ⟨"sparse-color", 2, 2, .image⟩, one "splice" .image,
    one "spread" .image, ⟨"statistic", 2, 2, .image⟩, bare "strip" .image, one "swirl" .image,
    one "threshold" .image, one "thumbnail" .image, one "tint" .image, bare "transform" .image,
    ⟨"transparent", 1, 1, .image⟩, bare "transpose" .image, bare "transverse" .image,
    bare "trim" .image, bare "unique" .image, bare "unique-colors" .image, one "unsharp" .image,
    one "vignette" .image, one "wave" .image, one "white-threshold" .image, bare "append" .list,
    bare "average" .list, one "channel-fx" .list, bare "clut" .list, bare "coalesce" .list,
    bare "combine" .list, bare "composite" .list, bare "deconstruct" .list, one "delete" .list,
    one "duplicate" .list, one "evaluate-sequence" .list, bare "fft" .list, bare "flatten" .list,
    one "fx" .list, bare "hald-clut" .list, bare "ift" .list, one "insert" .list,
    one "layers" .list, ⟨"limit", 2, 2, .list⟩, one "map" .list, one "morph" .list,
    bare "mosaic" .list, one "print" .list, one "remap" .list, bare "reverse" .list,
    ⟨"smush", 1, 1, .list⟩, one "swap" .list, ⟨"write", 1, 1, .list⟩ ]
/-- The entry of an option, with or without its sign. -/
def find? (option : String) : Option CatalogEntry :=
  let (name, _) := Invocation.splitSign option
  entries.find? fun e => e.name == name

/-- Whether a word of a command line is an option: a bracket, or a sign with something behind. -/
def isOption (token : String) : Bool :=
  match token.toList with
  | ['('] | [')'] | ['{'] | ['}'] => true
  | c :: _ :: _ => c == '-' || c == '+'
  | _ => false

end Catalog
end Darkroom
