import Darkroom.Description.Settings
import Darkroom.Engine.Recording

/-!
# Descriptions of requests

The arguments of every request to an engine by name.
-/

namespace Darkroom

/-- The name of a way to find colors; a filter is named behind it. -/
def Resampling.name : Resampling → String
  | .filtered filter => "Resize:" ++ Keyword.name filter
  | .adaptive => "Adaptive"
  | .sample => "Sample"
  | .scale => "Scale"
  | .thumbnail => "Thumbnail"
  | .interpolative => "Interpolative"
  | .liquidRescale => "LiquidRescale"

/-- The name of a way to weigh surroundings. -/
def BlurKind.name : BlurKind → String
  | .standard => "Standard"
  | .gaussian => "Gaussian"
  | .adaptive => "Adaptive"

open Detail

/-- A place with its values. -/
def SparsePoint.detail (p : SparsePoint) : Detail :=
  list [number p.x, number p.y, numbers p.values]

/-- The bytes as a text of hexadecimal digits, in lower case. -/
def hexText (bytes : List UInt8) : String :=
  String.ofList (Text.lower (bytes.flatMap Color.hexPair))

/-- A width and a height by name. -/
def Size.details (s : Size) : Details :=
  [("width", word s.width), ("height", word s.height)]

/-- A place by name. -/
def placeDetails (x y : Int64) : Details :=
  [("x", signed x), ("y", signed y)]

/-- The colors of a replacement and what counts as equal. -/
def replacementDetails (target fill : Color) (fuzz : Float) (invert : Bool) : Details :=
  [("target", color target), ("fill", color fill), ("fuzz", number fuzz), ("invert", truth invert)]

/-- The arguments of a transform. -/
def Transform.details : Transform → Details
  | .alpha mode => [("mode", keyword mode)]
  | .annotate s x y d =>
      [("text", text s), ("x", number x), ("y", number y),
        ("draw", record (d.detailsWith rounded))]
  | .autoGamma | .autoLevel | .clamp | .despeckle | .enhance | .equalize | .flip | .flop
  | .normalize | .transpose | .transverse | .uniqueColors => []
  | .blackThreshold v | .whiteThreshold v | .blueShift v | .deskew v | .gamma v | .implode v
  | .radialBlur v | .sepiaTone v | .solarize v | .swirl v | .threshold v => [("value", number v)]
  | .blur kind radius sigma =>
      [("kind", text kind.name), ("radius", number radius), ("sigma", number sigma)]
  | .border margin c k => margin.details ++ [("color", color c), ("compose", keyword k)]
  | .brightnessContrast b c => [("brightness", number b), ("contrast", number c)]
  | .charcoal radius sigma | .emboss radius sigma =>
      [("radius", number radius), ("sigma", number sigma)]
  | .chop r => [("rect", rect r)]
  | .cipher passphrase _ => [("passphrase", text (hexText passphrase))]
  | .colorDecisionList s | .colorMatrix s | .orderedDither s => [("text", text s)]
  | .colorize r g b fill => [("blend", numbers [r, g, b]), ("fill", color fill)]
  | .colorspace space => [("space", keyword space)]
  | .contrast more => [("sharpen", truth more)]
  | .contrastStretch black white | .linearStretch black white =>
      [("black", number black), ("white", number white)]
  | .crop regions => [("rects", list (regions.map rect))]
  | .cycle amount => [("amount", signed amount)]
  | .distort method arguments bestFit =>
      [("method", keyword method), ("args", numbers arguments), ("bestfit", truth bestFit)]
  | .draw primitive d => [("primitive", text primitive), ("draw", record d.details)]
  | .edge radius | .oilPaint radius | .spread radius => [("radius", number radius)]
  | .evaluate operator v => [("operator", keyword operator), ("value", number v)]
  | .extent s x y background => s.details ++ placeDetails x y ++ [("background", color background)]
  | .floodfill x y target fill fuzz invert =>
      placeDetails x y ++ replacementDetails target fill fuzz invert
  | .frame margin outer inner c k =>
      margin.details ++ [("outer", signed outer), ("inner", signed inner), ("color", color c),
        ("compose", keyword k)]
  | .function f parameters => [("function", keyword f), ("parameters", numbers parameters)]
  | .localThreshold s offset => s.details ++ [("offset", number offset)]
  | .level black white power invert =>
      [("black", number black), ("white", number white), ("gamma", number power),
        ("invert", truth invert)]
  | .levelColors black white invert =>
      [("black", color black), ("white", color white), ("invert", truth invert)]
  | .modulate brightness saturation hue =>
      [("brightness", number brightness), ("saturation", number saturation),
        ("hue", number hue)]
  | .morphology method iterations kernel =>
      [("method", keyword method), ("iterations", signed iterations), ("kernel", text kernel)]
  | .motionBlur radius sigma angle | .sketch radius sigma angle =>
      [("radius", number radius), ("sigma", number sigma), ("angle", number angle)]
  | .negate spareAlpha => [("spare_alpha", truth spareAlpha)]
  | .noise kind attenuate => [("noise", keyword kind), ("attenuate", number attenuate)]
  | .replaceColor target fill fuzz invert => replacementDetails target fill fuzz invert
  | .polaroid angle caption d =>
      [("angle", number angle), ("caption", option text caption), ("draw", record d.details)]
  | .posterize levels => [("levels", word levels)]
  | .quantize colors dither treeDepth =>
      [("colors", longWord colors), ("dither", truth dither), ("tree_depth", longWord treeDepth)]
  | .raise margin up => margin.details ++ [("raise", truth up)]
  | .randomThreshold low high => [("low", number low), ("high", number high)]
  | .remap reference dither => [("reference", reference.brief), ("dither", truth dither)]
  | .resize s method => s.details ++ [("method", text method.name)]
  | .roll x y => placeDetails x y
  | .rotate degrees background => [("degrees", number degrees), ("background", color background)]
  | .segment cluster smoothing => [("cluster", number cluster), ("smoothing", number smoothing)]
  | .selectiveBlur radius sigma limit =>
      [("radius", number radius), ("sigma", number sigma), ("threshold", number limit)]
  | .separate channels => [("channels", text channels.text)]
  | .shade azimuth elevation gray =>
      [("azimuth", number azimuth), ("elevation", number elevation), ("gray", truth gray)]
  | .shadow opacity sigma x y =>
      [("opacity", number opacity), ("sigma", number sigma)] ++ placeDetails x y
  | .sharpen radius sigma adaptive =>
      [("radius", number radius), ("sigma", number sigma), ("adaptive", truth adaptive)]
  | .shave margin => margin.details
  | .shear x y background =>
      [("x", number x), ("y", number y), ("background", color background)]
  | .sigmoidalContrast more amount midpoint =>
      [("sharpen", truth more), ("contrast", number amount), ("midpoint", number midpoint)]
  | .sparseColor method channels points =>
      [("method", keyword method), ("channels", text channels.text),
        ("points", list (points.map SparsePoint.detail))]
  | .splice region background => [("rect", rect region), ("background", color background)]
  | .statistic kind s => ("kind", keyword kind) :: s.details
  | .tint amount fill => [("amount", number amount), ("fill", color fill)]
  | .affine map => [("affine", numbers map.toList)]
  | .transparent target fuzz invert =>
      [("target", color target), ("fuzz", number fuzz), ("invert", truth invert)]
  | .trim fuzz => [("fuzz", number fuzz)]
  | .type kind => [("type", keyword kind)]
  | .unsharp radius sigma amount limit =>
      [("radius", number radius), ("sigma", number sigma), ("amount", number amount),
        ("threshold", number limit)]
  | .vignette radius sigma x y background =>
      [("radius", number radius), ("sigma", number sigma)] ++ placeDetails x y ++
        [("background", color background)]
  | .wave amplitude wavelength background =>
      [("amplitude", number amplitude), ("wavelength", number wavelength),
        ("background", color background)]

/-- The arguments of an assembly. -/
def Assembly.details : Assembly → Details
  | .append vertical => [("vertical", truth vertical)]
  | .channelFx expression | .fx expression => [("text", text expression)]
  | .lookup _ | .coalesce => []
  | .combine space => [("space", keyword space)]
  | .composite compose x y => ("compose", keyword compose) :: placeDetails x y
  | .compositeLayers compose x y split =>
      ("compose", keyword compose) :: placeDetails x y ++ [("split", count split)]
  | .evaluateSequence operator => [("operator", keyword operator)]
  | .fourier magnitude | .inverseFourier magnitude => [("magnitude", truth magnitude)]
  | .layers method => [("method", keyword method)]
  | .morph frames => [("frames", longWord frames)]
  | .remap colors dither => [("colors", longWord colors), ("dither", truth dither)]
  | .smush offset vertical => [("offset", signed offset), ("vertical", truth vertical)]

/-- A request with its name and arguments. -/
def EngineCall.detail (call : EngineCall) : Detail :=
  let arguments : Details := match call with
    | .read r =>
        [("source", text r.source), ("ping", truth r.ping), ("size", option size r.size),
          ("background", color r.background)]
    | .write n r =>
        [("n", count n), ("dest", text r.destination), ("adjoin", truth r.adjoin),
          ("quality", option word r.quality)]
    | .transform image op => ("file", text image.filename) :: op.details
    | .assemble n op => ("n", count n) :: op.details
  record (("op", text call.name) :: arguments)

end Darkroom
