import Darkroom.Settings.Drawing

/-!
# Work on pixels

What the options ask of the engine that works on pixels: a transform takes one image, an assembly a
list of images.  All arguments are numbers and keywords; parsing is over when one of these is made.
-/

namespace Darkroom

/-- A request to read a path, a directory or a made-up image such as `xc:red`. -/
structure ReadRequest where
  /-- What to read. -/
  source : String
  /-- Only the size is wanted. -/
  ping : Bool
  /-- The size of a made-up image. -/
  size : Option Size
  /-- The color of a made-up image without its own. -/
  background : Color

/-- A request to write images. -/
structure WriteRequest where
  /-- Where to write. -/
  destination : String
  /-- One file for all images when its format allows it. -/
  adjoin : Bool
  /-- The quality of the file. -/
  quality : Option UInt32

/-- How a resize finds colors. -/
inductive Resampling where
  /-- A filter. -/
  | filtered (filter : Filter)
  /-- A filter that adapts. -/
  | adaptive
  /-- The nearest pixel. -/
  | sample
  /-- Averages. -/
  | scale
  /-- Fast and small. -/
  | thumbnail
  /-- Between pixels. -/
  | interpolative
  /-- Seams carved out. -/
  | liquidRescale
deriving DecidableEq, Repr

/-- How a blur weighs its surroundings. -/
inductive BlurKind where
  /-- One pass for each direction. -/
  | standard
  /-- The whole surroundings. -/
  | gaussian
  /-- Less near edges. -/
  | adaptive
deriving DecidableEq, Repr

/-- A place with values for the channels. -/
structure SparsePoint where
  /-- The horizontal place. -/
  x : Float
  /-- The vertical place. -/
  y : Float
  /-- One value for each selected channel, as fractions, then zeros up to four. -/
  values : List Float
deriving Repr

/-- An operation on one image. -/
inductive Transform where
  | alpha (mode : AlphaMode)
  | annotate (text : String) (x y : Float) (drawing : DrawingSettings)
  | autoGamma
  | autoLevel
  | blackThreshold (level : Float)
  | blueShift (factor : Float)
  | blur (kind : BlurKind) (radius sigma : Float)
  | border (size : Size) (color : Color) (compose : Compose)
  | brightnessContrast (brightness contrast : Float)
  | charcoal (radius sigma : Float)
  | chop (rect : Rect)
  | clamp
  | cipher (passphrase : List UInt8) (encipher : Bool)
  | colorDecisionList (document : String)
  | colorize (red green blue : Float) (fill : Color)
  | colorMatrix (text : String)
  | colorspace (space : Colorspace)
  | contrast (sharpen : Bool)
  | contrastStretch (black white : Float)
  | crop (regions : List Rect)
  | cycle (amount : Int64)
  | deskew (threshold : Float)
  | despeckle
  | distort (method : Distortion) (arguments : List Float) (bestFit : Bool)
  | draw (primitive : String) (drawing : DrawingSettings)
  | edge (radius : Float)
  | emboss (radius sigma : Float)
  | enhance
  | equalize
  | evaluate (operator : Evaluation) (value : Float)
  | extent (size : Size) (x y : Int64) (background : Color)
  | flip
  | flop
  | floodfill (x y : Int64) (target fill : Color) (fuzz : Float) (invert : Bool)
  | frame (size : Size) (outerBevel innerBevel : Int64) (color : Color) (compose : Compose)
  | function (function : ToneFunction) (parameters : List Float)
  | gamma (value : Float)
  | implode (amount : Float)
  | localThreshold (size : Size) (offset : Float)
  | level (black white gamma : Float) (invert : Bool)
  | linearStretch (black white : Float)
  | levelColors (black white : Color) (invert : Bool)
  | modulate (brightness saturation hue : Float)
  | morphology (method : Morphology) (iterations : Int64) (kernel : String)
  | motionBlur (radius sigma angle : Float)
  | negate (spareAlpha : Bool)
  | noise (noise : Noise) (attenuate : Float)
  | normalize
  | oilPaint (radius : Float)
  | replaceColor (target fill : Color) (fuzz : Float) (invert : Bool)
  | orderedDither (pattern : String)
  | polaroid (angle : Float) (caption : Option String) (drawing : DrawingSettings)
  | posterize (levels : UInt32)
  | quantize (colors : UInt64) (dither : Bool) (treeDepth : UInt64)
  | radialBlur (angle : Float)
  | raise (size : Size) (raise : Bool)
  | randomThreshold (low high : Float)
  | remap (reference : Image) (dither : Bool)
  | resize (size : Size) (method : Resampling)
  | roll (x y : Int64)
  | rotate (degrees : Float) (background : Color)
  | segment (clusterThreshold smoothing : Float)
  | selectiveBlur (radius sigma threshold : Float)
  | separate (channels : ChannelSet)
  | sepiaTone (threshold : Float)
  | shade (azimuth elevation : Float) (gray : Bool)
  | shadow (opacity sigma : Float) (x y : Int64)
  | sharpen (radius sigma : Float) (adaptive : Bool)
  | shave (size : Size)
  | shear (xDegrees yDegrees : Float) (background : Color)
  | sigmoidalContrast (sharpen : Bool) (contrast midpoint : Float)
  | sketch (radius sigma angle : Float)
  | solarize (threshold : Float)
  | sparseColor (method : SparseMethod) (channels : ChannelSet) (points : List SparsePoint)
  | splice (region : Rect) (background : Color)
  | spread (radius : Float)
  | statistic (kind : Statistic) (size : Size)
  | swirl (degrees : Float)
  | threshold (level : Float)
  | tint (amount : Float) (fill : Color)
  | affine (map : Affine)
  | transparent (target : Color) (fuzz : Float) (invert : Bool)
  | transpose
  | transverse
  | trim (fuzz : Float)
  | type (type : ImageType)
  | uniqueColors
  | unsharp (radius sigma amount threshold : Float)
  | vignette (radius sigma : Float) (x y : Int64) (background : Color)
  | wave (amplitude wavelength : Float) (background : Color)
  | whiteThreshold (level : Float)

namespace Transform

/-- The name of the operation in logs. -/
def name : Transform → String
  | alpha .. => "alpha"
  | annotate .. => "annotate"
  | autoGamma => "auto-gamma"
  | autoLevel => "auto-level"
  | blackThreshold .. => "black-threshold"
  | blueShift .. => "blue-shift"
  | blur .. => "blur"
  | border .. => "border"
  | brightnessContrast .. => "brightness-contrast"
  | charcoal .. => "charcoal"
  | chop .. => "chop"
  | clamp => "clamp"
  | cipher _ true => "encipher"
  | cipher _ false => "decipher"
  | colorDecisionList .. => "cdl"
  | colorize .. => "colorize"
  | colorMatrix .. => "color-matrix"
  | colorspace .. => "colorspace"
  | contrast .. => "contrast"
  | contrastStretch .. => "contrast-stretch"
  | crop .. => "crop"
  | cycle .. => "cycle"
  | deskew .. => "deskew"
  | despeckle => "despeckle"
  | distort .. => "distort"
  | draw .. => "draw"
  | edge .. => "edge"
  | emboss .. => "emboss"
  | enhance => "enhance"
  | equalize => "equalize"
  | evaluate .. => "evaluate"
  | extent .. => "extent"
  | flip => "flip"
  | flop => "flop"
  | floodfill .. => "floodfill"
  | frame .. => "frame"
  | function .. => "function"
  | gamma .. => "gamma"
  | implode .. => "implode"
  | localThreshold .. => "lat"
  | level .. => "level"
  | linearStretch .. => "linear-stretch"
  | levelColors .. => "level-colors"
  | modulate .. => "modulate"
  | morphology .. => "morphology"
  | motionBlur .. => "motion-blur"
  | negate .. => "negate"
  | noise .. => "noise"
  | normalize => "normalize"
  | oilPaint .. => "paint"
  | replaceColor .. => "opaque"
  | orderedDither .. => "ordered-dither"
  | polaroid .. => "polaroid"
  | posterize .. => "posterize"
  | quantize .. => "quantize"
  | radialBlur .. => "radial-blur"
  | raise .. => "raise"
  | randomThreshold .. => "random-threshold"
  | remap .. => "remap"
  | resize .. => "resize"
  | roll .. => "roll"
  | rotate .. => "rotate"
  | segment .. => "segment"
  | selectiveBlur .. => "selective-blur"
  | separate .. => "separate"
  | sepiaTone .. => "sepia-tone"
  | shade .. => "shade"
  | shadow .. => "shadow"
  | sharpen .. => "sharpen"
  | shave .. => "shave"
  | shear .. => "shear"
  | sigmoidalContrast .. => "sigmoidal-contrast"
  | sketch .. => "sketch"
  | solarize .. => "solarize"
  | sparseColor .. => "sparse-color"
  | splice .. => "splice"
  | spread .. => "spread"
  | statistic .. => "statistic"
  | swirl .. => "swirl"
  | threshold .. => "threshold"
  | tint .. => "tint"
  | affine .. => "transform"
  | transparent .. => "transparent"
  | transpose => "transpose"
  | transverse => "transverse"
  | trim .. => "trim"
  | type .. => "type"
  | uniqueColors => "unique-colors"
  | unsharp .. => "unsharp"
  | vignette .. => "vignette"
  | wave .. => "wave"
  | whiteThreshold .. => "white-threshold"

end Transform

/-- An operation on a list of images. -/
inductive Assembly where
  | append (vertical : Bool)
  | channelFx (expression : String)
  | lookup (hald : Bool)
  | coalesce
  | combine (space : Colorspace)
  | composite (compose : Compose) (x y : Int64)
  | compositeLayers (compose : Compose) (x y : Int64) (split : Nat)
  | evaluateSequence (operator : Evaluation)
  | fourier (magnitude : Bool)
  | fx (expression : String)
  | inverseFourier (magnitude : Bool)
  | layers (method : LayerMethod)
  | morph (frames : UInt64)
  | remap (colors : UInt64) (dither : Bool)
  | smush (offset : Int64) (vertical : Bool)

namespace Assembly

/-- The name of the operation in logs. -/
def name : Assembly → String
  | append .. => "append"
  | channelFx .. => "channel-fx"
  | lookup false => "clut"
  | lookup true => "hald-clut"
  | coalesce => "coalesce"
  | combine .. => "combine"
  | composite .. => "composite"
  | compositeLayers .. => "layers-composite"
  | evaluateSequence .. => "evaluate-sequence"
  | fourier .. => "fft"
  | fx .. => "fx"
  | inverseFourier .. => "ift"
  | layers .. => "layers"
  | morph .. => "morph"
  | remap .. => "remap"
  | smush .. => "smush"

end Assembly

/-- What a transform made of its image. -/
inductive Outcome where
  /-- The image stays as it is. -/
  | unchanged
  /-- The same image with other pixels or attributes. -/
  | mutated (image : Image)
  /-- Another image stands in its place. -/
  | replaced (image : Image)
  /-- Several images stand in its place. -/
  | parts (images : List Image)

/-- Why the engine refused. -/
inductive EngineFault where
  /-- The file system refused. -/
  | io (reason : String)
  /-- The work went wrong. -/
  | failed (reason : String)
  /-- The engine cannot do it. -/
  | unsupported (operation : String)
  /-- A resource ran out. -/
  | exhausted (resource : String)
deriving DecidableEq, Repr

namespace EngineFault

/-- The wording of a refusal. -/
def message : EngineFault → String
  | io reason => "IO error: " ++ reason
  | failed reason => "Processing failed: " ++ reason
  | unsupported operation => "Unsupported operation: " ++ operation
  | exhausted resource => "Resource exhausted: " ++ resource

/-- The fault a refusal is reported as. -/
def toFault : EngineFault → Fault
  | exhausted resource => .exhausted resource
  | refusal => .engine refusal.message

/-- The fault of a refused read. -/
def toReadFault (path : String) : EngineFault → Fault
  | exhausted resource => .exhausted resource
  | refusal => .unreadable path refusal.message

/-- The fault of a refused write. -/
def toWriteFault (path : String) : EngineFault → Fault
  | exhausted resource => .exhausted resource
  | refusal => .unwritable path refusal.message

end EngineFault
end Darkroom
