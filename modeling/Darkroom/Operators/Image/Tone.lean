import Darkroom.Operators.Image.Basic

/-!
# Operators on color and tone

Alpha, levels, thresholds, color replacement and color spaces.
-/

namespace Darkroom
namespace ImageOperator

/-- A mode for the alpha channel. -/
def alpha : ImageOperator :=
  fun _ _ inv => do work (.alpha (← inv.keyword AlphaMode))

/-- The alpha channel switched on or off. -/
def matte : ImageOperator :=
  fun _ _ inv => work (.alpha (if inv.normal then .assign else .deactivate))

/-- A scene by moonlight; the factor is one and a half unless given. -/
def blueShift : ImageOperator :=
  fun _ _ inv =>
    if inv.normal && inv.first?.isSome then do work (.blueShift (← inv.geometry).rhoValue)
    else work (.blueShift 1.5)

/-- Brightness and contrast. -/
def brightnessContrast : ImageOperator :=
  byGeometry fun g => .brightnessContrast g.rhoValue (sigmaOr g 0.0)

/-- Color decisions from a file. -/
def colorDecisions : ImageOperator :=
  fun view _ inv => do work (.colorDecisionList (← view.textOf (← inv.first)))

/-- Pixels made unreadable with the passphrase in a file, or readable again. -/
def cipher : ImageOperator :=
  fun view _ inv => do
    let passphrase ← view.bytesOf (← inv.first)
    work (.cipher passphrase (inv.name == "encipher"))

/-- The fill color mixed in by percentages. -/
def colorize : ImageOperator :=
  fun view _ inv => do
    let g ← inv.geometry
    work (.colorize g.rhoValue (sigmaOrRho g) (g.xi.getD g.rhoValue) view.settings.drawing.fill)

/-- A matrix on colors. -/
def colorMatrix : ImageOperator :=
  fun _ _ inv => do work (.colorMatrix (← inv.first))

/-- Colors reduced to a number; zero leaves them. -/
def colors : ImageOperator :=
  fun view image inv => do
    let count ← inv.word Integer.word64?
    if count = 0 then unchanged image
    else
      let quantizing := view.settings.quantizing
      work (.quantize count quantizing.dither quantizing.treeDepth)

/-- Another color space, the standard one when taken back. -/
def colorspace : ImageOperator :=
  fun _ image inv => do
    let space ← if inv.normal then inv.keyword Colorspace else pure .srgb
    if image.colorspace = space then unchanged image
    else .ok (.apply (.colorspace space) fun image => { image with colorspace := space })

/-- More or less contrast. -/
def contrast : ImageOperator :=
  fun _ _ inv => work (.contrast inv.normal)

/-- The numbers of pixels to discard at the dark and the bright end. -/
def discards (g : Geometry) (pixels : Float) : Float × Float :=
  (scaled g g.rhoValue pixels, scaled g (sigmaOrRho g) pixels)

/-- A stretch of the gray levels with pixels discarded at the ends. -/
def stretch (op : Float → Float → Transform) : ImageOperator :=
  fun _ image inv => do
    let g ← inv.geometry
    let (black, white) := discards g (image.size.width.toFloat * image.size.height.toFloat)
    work (op black white)

/-- Colors moved along the palette. -/
def cycle : ImageOperator :=
  fun _ _ inv => do work (.cycle (← inv.word Integer.signed64?))

/-- The image straightened; the threshold is two fifths when taken back. -/
def deskew : ImageOperator :=
  fun _ _ inv => do
    if inv.normal then work (.deskew ((← channelValue (← inv.first)) / greatestValue))
    else work (.deskew 0.4)

/-- An operation on channel values with a fixed value. -/
def evaluate : ImageOperator :=
  fun _ _ inv => do
    let operator ← inv.keyword Evaluation
    work (.evaluate operator (← channelValue (← inv.second)))

/-- A function of channel values. -/
def function : ImageOperator :=
  fun _ _ inv => do
    let kind ← inv.keyword ToneFunction
    work (.function kind (← numbers (← inv.second)))

/-- A gamma correction; when taken back the gamma is only noted. -/
def gamma : ImageOperator :=
  fun _ image inv => do
    let g ← inv.geometry
    if inv.normal then work (.gamma g.rhoValue)
    else unchanged (image.setProperty "gamma" (decimal g.rhoValue))

/-- The black point, white point and gamma of a geometry.  Without a white point the range is
symmetric. -/
def levels (g : Geometry) : Float × Float × Float :=
  let black := scaled g g.rhoValue greatestValue
  let white := match g.sigma with
    | some sigma => scaled g sigma greatestValue
    | none => greatestValue - black
  (black, white, g.xi.getD 1.0)

/-- A range of levels stretched over everything, or the reverse. -/
def level : ImageOperator :=
  fun _ _ inv => do
    let (black, white, gamma) := levels (← inv.geometry)
    work (.level black white gamma (!inv.normal))

/-- The parts before and after the first comma outside brackets. -/
def cutAtComma? (depth : Nat) : List Char → Option (List Char × List Char)
  | [] => none
  | c :: rest =>
      if c = ',' ∧ depth = 0 then some ([], rest)
      else
        let depth := if c = '(' then depth + 1 else if c = ')' then depth - 1 else depth
        (cutAtComma? depth rest).map fun (head, tail) => (c :: head, tail)

/-- The channels stretched between two colors, or the reverse; one color stands for both. -/
def levelColors : ImageOperator :=
  fun _ _ inv => do
    let text ← inv.first
    let (first, second?) := match cutAtComma? 0 text.toList with
      | some (head, tail) => (head, some (Text.trim tail))
      | none => (text.toList, none)
    let black ← Invocation.colorOf (String.ofList (Text.trim first))
    let white ← match second? with
      | some tail => if tail.isEmpty then pure black else Invocation.colorOf (String.ofList tail)
      | none => pure black
    work (.levelColors black white (!inv.normal))

/-- Brightness, saturation and hue in hundredths. -/
def modulate : ImageOperator :=
  byGeometry fun g => .modulate g.rhoValue (sigmaOr g 100.0) (g.xi.getD 100.0)

/-- The negative. -/
def negate : ImageOperator :=
  fun _ _ inv => work (.negate (!inv.normal))

/-- A color replaced by the fill color, or all others. -/
def replaceColor : ImageOperator :=
  fun view image inv => do
    let target ← inv.color
    work (.replaceColor target view.settings.drawing.fill image.fuzz (!inv.normal))

/-- A color made transparent, or all others. -/
def transparent : ImageOperator :=
  fun _ image inv => do
    let target ← inv.color
    work (.transparent target image.fuzz (!inv.normal))

/-- A dither by a pattern. -/
def orderedDither : ImageOperator :=
  fun _ _ inv => do work (.orderedDither (← inv.first))

/-- A number of levels for each channel. -/
def posterize : ImageOperator :=
  fun _ _ inv => do work (.posterize (← inv.word Integer.word32?))

/-- A threshold at random in a range. -/
def randomThreshold : ImageOperator :=
  byGeometry fun g =>
    .randomThreshold (scaled g g.rhoValue greatestValue) (scaled g (sigmaOrRho g) greatestValue)

/-- Colors gathered into clusters. -/
def segment : ImageOperator :=
  byGeometry fun g => .segment g.rhoValue (sigmaOr g 1.5)

/-- An S-shaped contrast around a middle, or its reverse. -/
def sigmoidalContrast : ImageOperator :=
  fun _ _ inv => do
    let g ← inv.geometry
    let middle := match g.sigma with
      | some sigma => scaled g sigma greatestValue
      | none => greatestValue / 2.0
    work (.sigmoidalContrast inv.normal g.rhoValue middle)

/-- Black and white divided at a level, the middle when taken back. -/
def threshold : ImageOperator :=
  fun _ _ inv => do
    if inv.normal then work (.threshold (← channelValue (← inv.first)))
    else work (.threshold (greatestValue / 2.0))

/-- A threshold from the surroundings. -/
def localThreshold : ImageOperator :=
  byGeometry fun g =>
    .localThreshold (sizeAtLeast 1.0 g) (scaled g g.xiValue greatestValue)

/-- The midtones moved toward the fill color. -/
def tint : ImageOperator :=
  fun view _ inv => do
    let g ← inv.geometry
    work (.tint g.rhoValue view.settings.drawing.fill)

/-- A kind of pixels; taking it back does nothing. -/
def type : ImageOperator :=
  fun _ image inv => do
    if inv.normal then work (.type (← inv.keyword ImageType)) else unchanged image

/-- The selected channels as images of their own. -/
def separate : ImageOperator :=
  fun _ image _ => work (.separate image.channels)

/-- The selected channels noted on the image, or separated when the selection is taken back. -/
def channel : ImageOperator :=
  fun view image inv =>
    if inv.normal then unchanged { image with channels := view.settings.image.channels }
    else separate view image inv

end ImageOperator
end Darkroom
