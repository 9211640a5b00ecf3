import Darkroom.Engine.Transform
import Darkroom.Pixels.Blur
import Darkroom.Pixels.Hsl
import Darkroom.Pixels.Layers
import Darkroom.Pixels.Neighborhood
import Darkroom.Pixels.Shape

/-!
# The pixel engine

The work on pixels that the transforms and assemblies ask for.  It neither reads nor writes files.
What it cannot do it refuses by name.
-/

namespace Darkroom
namespace PixelEngine

/-- Refusal of an operation by name. -/
def refuse {α : Type} (operation : String) : Except EngineFault α :=
  .error (.unsupported operation)

/-- Refusal of a geometry that leaves nothing of the image. -/
def missed {α : Type} : Except EngineFault α :=
  .error (.failed "geometry does not contain image")

/-- A color with its color channels inverted. -/
def invert (c : Color) : Color :=
  { c with red := 255 - c.red, green := 255 - c.green, blue := 255 - c.blue }

/-- The image inverted; its alpha too when a part of the channels with alpha is selected. -/
def negate (spareAlpha : Bool) (image : Image) : Image :=
  let out := image.withBitmap (image.bitmap.map invert)
  if !spareAlpha && image.channels.alpha && image.channels != .full then
    out.mapColors fun c => { c with alpha := 255 - c.alpha }
  else out

/-- The gray of a color in whole numbers. -/
def wholeGray (c : Color) : UInt8 :=
  UInt8.ofNat ((2126 * c.red.toNat + 7152 * c.green.toNat + 722 * c.blue.toNat) / 10000)

/-- The bitmap without color, its alpha kept. -/
def desaturate (b : Bitmap) : Bitmap :=
  let gray (c : Color) : Color :=
    let g := wholeGray c
    ⟨g, g, g, c.alpha⟩
  match b.layout with
  | .rgba8 => Bitmap.of .la8 (b.raster.map gray)
  | .rgb8 => Bitmap.of .l8 (b.raster.map gray)
  | .l8 | .la8 => b

/-- What an alpha mode makes of an image. -/
def setAlpha (mode : AlphaMode) (image : Image) : Outcome :=
  match mode with
  | .on | .assign | .activate => .mutated (image.withBitmap image.bitmap.toRgba8)
  | .off | .deactivate | .remove => .mutated (image.withBitmap image.bitmap.toRgb8)
  | .solid => .mutated (image.mapColors fun c => { c with alpha := 255 })
  | .transparent => .mutated (image.mapColors fun c => { c with alpha := 0 })
  | .extract => .mutated (image.mapColors fun c => Color.gray c.alpha)
  | _ => .unchanged

/-- What an image type makes of an image. -/
def setType (type : ImageType) (image : Image) : Outcome :=
  match type with
  | .grayscale => .mutated (image.withBitmap image.bitmap.toL8)
  | .grayscaleAlpha => .mutated (image.withBitmap image.bitmap.toLa8)
  | .bilevel =>
      .mutated (image.mapColors fun c => { Tone.threshold 127.5 c with alpha := 255 })
  | .trueColor => .mutated (image.withBitmap image.bitmap.toRgb8)
  | .trueColorAlpha => .mutated (image.withBitmap image.bitmap.toRgba8)
  | _ => .unchanged

/-- The parts that a crop cuts: one takes the place of the image, several become a list. -/
def crop (regions : List Rect) (image : Image) : Except EngineFault Outcome :=
  match regions.map image.cut with
  | [] => missed
  | [part] => .ok (.replaced part)
  | parts => .ok (.parts parts)

/-- An image brought to another size. -/
def resize (size : Size) (method : Resampling) (image : Image) : Except EngineFault Outcome :=
  let sized (kernel : Resample.Kernel) : Image :=
    image.withBitmap (image.bitmap.resize size kernel)
  match method with
  | .filtered filter => .ok (.replaced (sized (Resample.ofFilter filter)))
  | .sample => .ok (.replaced (sized Resample.nearest))
  | .scale | .adaptive => .ok (.replaced (sized Resample.triangle))
  | .interpolative => .ok (.replaced (sized Resample.cubic))
  | .thumbnail => .ok (.replaced (sized Resample.nearest).strip)
  | .liquidRescale => refuse "liquid-rescale"

/-- An area filled from a seed; a seed outside fills nothing. -/
def floodfill (x y : Int64) (target fill : Color) (fuzz : Float) (invert : Bool) (image : Image) :
    Outcome :=
  if x < 0 ∨ y < 0 ∨ wide image.size.width ≤ x ∨ wide image.size.height ≤ y then .unchanged
  else
    .mutated (image.withRaster
      (image.raster.floodfill x.toInt.toNat y.toInt.toNat target fill fuzz invert))

/-- The image of its different colors in one row. -/
def uniqueColors (image : Image) : Image :=
  let colors := Palette.ofRaster image.raster
  image.withRaster (Raster.ofList (Size.atLeastOne ⟨UInt32.ofNat colors.length, 1⟩) colors)

/-- The image with other pixels with color and alpha. -/
def redrawn (f : Raster → Raster) (image : Image) : Image :=
  image.withRaster (f image.raster)

/-- The image with its bitmap changed in its layout. -/
def moved (f : Raster → Raster) (image : Image) : Image :=
  image.withBitmap (image.bitmap.mapRaster f)

/-- What a transform makes of an image. -/
def transform (image : Image) (op : Transform) : Except EngineFault Outcome :=
  let mutated (image : Image) : Except EngineFault Outcome := .ok (.mutated image)
  let replaced (image : Image) : Except EngineFault Outcome := .ok (.replaced image)
  let curve (f : Float → Float) : Except EngineFault Outcome :=
    mutated (image.mapValues (Tone.onByte f))
  match op with
  | .alpha mode => .ok (setAlpha mode image)
  | .autoGamma =>
      match Tone.autoGamma? image with
      | some image => mutated image
      | none => .ok .unchanged
  | .autoLevel | .normalize => mutated (Tone.autoLevel Float image)
  | .blackThreshold level => curve fun v => if v * 255.0 < level then 0.0 else v
  | .whiteThreshold level => curve fun v => if level < v * 255.0 then 1.0 else v
  | .blur .adaptive _ _ => refuse "adaptive-blur"
  | .blur _ _ sigma => mutated (moved (Blur.soften (Blur.leastSigma sigma)) image)
  | .border margin color compose =>
      replaced (redrawn (fun r => r.border margin color compose) image)
  | .brightnessContrast brightness contrast => curve (Tone.brightnessContrast brightness contrast)
  | .chop rect =>
      match image.raster.chop? rect with
      | some raster => replaced (image.withRaster raster)
      | none => missed
  | .clamp => .ok .unchanged
  | .colorspace space =>
      let out :=
        if space = .gray then image.withBitmap (desaturate image.bitmap) else image
      mutated { out with colorspace := space }
  | .contrast sharpen =>
      let f := Tone.contrastByte (if sharpen then 10.0 else -10.0)
      mutated (image.withBitmap (image.bitmap.map (Color.mapChannels Channel.all f)))
  | .contrastStretch black white | .linearStretch black white =>
      mutated (Tone.stretchContrast black white image)
  | .crop regions => crop regions image
  | .edge _ => mutated (moved (fun r => r.weigh Raster.edgeWeights) image)
  | .emboss _ _ => mutated (moved (fun r => r.weigh Raster.reliefWeights) image)
  | .equalize => mutated (Tone.equalize image)
  | .evaluate operator value => curve (Tone.evaluateCurve operator value)
  | .extent size x y background =>
      replaced (redrawn (fun r => r.onCanvas size background (-x) (-y) .over) image)
  | .flip => mutated (moved Raster.flip image)
  | .flop => mutated (moved Raster.flop image)
  | .transpose => mutated (moved Raster.transpose image)
  | .transverse => mutated (moved Raster.transverse image)
  | .floodfill x y target fill fuzz invert =>
      .ok (floodfill x y target fill fuzz invert image)
  | .gamma value =>
      let gamma := if value ≤ 0.0 then 1.0 else value
      curve fun v => v.pow (1.0 / gamma)
  | .level black white gamma invert => curve (Tone.level black white gamma invert)
  | .modulate brightness saturation hue =>
      mutated (image.mapColors (Hsl.modulate brightness saturation hue))
  | .negate spareAlpha => mutated (negate spareAlpha image)
  | .replaceColor target fill fuzz invert =>
      mutated (image.mapColors (Color.replaceNear target fill fuzz invert))
  | .transparent target fuzz invert =>
      mutated (image.mapColors (Color.clearNear target fuzz invert))
  | .posterize levels => mutated (image.mapValues (Tone.posterizeBytes Float levels.toNat))
  | .quantize colors _ _ => curve (Tone.posterize (Tone.quantizeLevels colors - 1.0))
  | .raise margin raise => mutated (redrawn (fun r => r.raised margin raise) image)
  | .remap reference _ => mutated (Palette.remap (Palette.ofRaster reference.raster) image)
  | .resize size method => resize size method image
  | .roll x y => mutated (redrawn (fun r => r.roll x y) image)
  | .rotate degrees background => replaced (image.rotate degrees background)
  | .separate channels => .ok (.parts (Layers.separate channels image))
  | .sepiaTone threshold => mutated (image.mapColors (Tone.sepia threshold))
  | .sharpen _ _ true => refuse "adaptive-sharpen"
  | .sharpen _ sigma false => mutated (moved (Blur.sharpen (Blur.leastSigma sigma) 0) image)
  | .unsharp _ sigma _ threshold =>
      let threshold := (truncInt64 threshold).toInt
      mutated (moved (Blur.sharpen (Blur.leastSigma sigma) threshold) image)
  | .shave margin =>
      match image.shave? margin with
      | some image => replaced image
      | none => missed
  | .sigmoidalContrast sharpen contrast midpoint =>
      curve (Tone.sigmoidal sharpen contrast midpoint)
  | .solarize threshold => curve fun v => if threshold < v * 255.0 then 1.0 - v else v
  | .sparseColor method channels points =>
      mutated (redrawn (fun r => r.sparseColor method channels points) image)
  | .splice region background => replaced (redrawn (fun r => r.splice region background) image)
  | .threshold level => mutated (image.mapColors (Tone.threshold level))
  | .trim fuzz =>
      match image.trim? fuzz with
      | some image => replaced image
      | none => .ok .unchanged
  | .type type => .ok (setType type image)
  | .uniqueColors => replaced (uniqueColors image)
  | .despeckle | .enhance => mutated (moved (Blur.soften 0.5) image)
  | .blueShift factor => mutated (image.mapColors (Tone.blueShift factor))
  | .colorize red green blue fill =>
      mutated (image.mapColors (Tone.colorize red green blue fill))
  | .tint amount fill => mutated (image.mapColors (Tone.tint amount fill))
  | .levelColors black white invert =>
      mutated (image.mapColors (Tone.levelColors black white invert))
  | .frame margin outerBevel innerBevel color compose =>
      replaced (redrawn (fun r => r.frame margin outerBevel innerBevel color compose) image)
  | .statistic kind size =>
      match Raster.statistic? kind with
      | some reduce => mutated (redrawn (fun r => r.reduceWindows size reduce) image)
      | none => refuse (Keyword.name kind)
  | other => refuse other.name

/-- What a method for layers makes of a sequence. -/
def arrange (method : LayerMethod) (first : Image) (rest : List Image) :
    Except EngineFault (List Image) :=
  match method with
  | .flatten | .merge | .mosaic => .ok [Layers.flatten method first rest]
  | .coalesce => .ok (Layers.coalesce first rest)
  | .removeDups => .ok (Layers.removeRepeats (first :: rest))
  | .removeZero => .ok (Layers.removeInstant (first :: rest))
  | .trimBounds => .ok (Layers.trimBounds (first :: rest))
  | other => refuse ("layers " ++ Keyword.name other)

/-- What an assembly makes of a sequence that is not empty. -/
def assembleFrom (first : Image) (rest : List Image) :
    Assembly → Except EngineFault (List Image)
  | .append vertical => .ok [Layers.append vertical 0 first rest]
  | .smush offset vertical => .ok [Layers.append vertical offset first rest]
  | .coalesce => .ok (Layers.coalesce first rest)
  | .combine space => .ok [Layers.combine space first rest]
  | .lookup false =>
      match rest with
      | table :: _ => .ok [Layers.lookup first table]
      | [] => .error (.failed "clut needs two images")
  | .composite compose x y =>
      match rest with
      | source :: _ => .ok [Layers.composite compose x y first source]
      | [] => .error (.failed "composite needs two images")
  | .compositeLayers compose x y split =>
      let images := first :: rest
      .ok (Layers.compositePairs compose x y (images.take split) (images.drop split))
  | .evaluateSequence operator => .ok [Layers.evaluateSequence operator first rest]
  | .layers method => arrange method first rest
  | .morph frames => .ok (Layers.morph frames.toNat (first :: rest))
  | .remap colors _ =>
      let images := first :: rest
      let palette := Palette.shared (images.map Image.raster) colors.toNat
      .ok (images.map (Palette.remap palette))
  | other => refuse other.name

/-- What an assembly makes of a sequence; nothing comes of nothing. -/
def assemble (images : List Image) (op : Assembly) : Except EngineFault (List Image) :=
  match images with
  | [] => .ok []
  | first :: rest => assembleFrom first rest op

end PixelEngine
end Darkroom
