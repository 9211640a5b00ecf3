import Darkroom.Operators.Image.Attributes
import Darkroom.Operators.Image.Detail
import Darkroom.Operators.Image.Shape
import Darkroom.Operators.Image.Tone

/-!
# The operators on one image by name
-/

namespace Darkroom
namespace ImageOperator

/-- Every operator on one image, by its name without the sign. -/
def all : List (String × ImageOperator) :=
  [ ("adaptive-blur", blur .adaptive),
    ("adaptive-resize", resizeBy .adaptive),
    ("adaptive-sharpen", sharpen true),
    ("alpha", alpha),
    ("annotate", annotate),
    ("auto-gamma", always .autoGamma),
    ("auto-level", always .autoLevel),
    ("auto-orient", autoOrient),
    ("black-threshold", byChannelValue .blackThreshold),
    ("blue-shift", blueShift),
    ("blur", blur .standard),
    ("border", border),
    ("brightness-contrast", brightnessContrast),
    ("cdl", colorDecisions),
    ("channel", channel),
    ("charcoal", charcoal),
    ("chop", chop),
    ("clamp", always .clamp),
    ("colorize", colorize),
    ("color-matrix", colorMatrix),
    ("colors", colors),
    ("colorspace", colorspace),
    ("contrast", contrast),
    ("contrast-stretch", stretch .contrastStretch),
    ("convolve", convolve),
    ("crop", crop),
    ("cycle", cycle),
    ("decipher", cipher),
    ("depth", depth),
    ("deskew", deskew),
    ("despeckle", always .despeckle),
    ("distort", distort),
    ("draw", draw),
    ("edge", edge),
    ("emboss", emboss),
    ("encipher", cipher),
    ("enhance", always .enhance),
    ("equalize", always .equalize),
    ("evaluate", evaluate),
    ("extent", extent),
    ("features", features),
    ("flip", always .flip),
    ("floodfill", floodfill),
    ("flop", always .flop),
    ("frame", frame),
    ("function", function),
    ("gamma", gamma),
    ("gaussian", blur .gaussian),
    ("gaussian-blur", blur .gaussian),
    ("geometry", geometry),
    ("highlight-color", comparisonColor "compare:highlight-color"),
    ("identify", identify),
    ("implode", implode),
    ("interpolative-resize", resizeBy .interpolative),
    ("lat", localThreshold),
    ("level", level),
    ("level-colors", levelColors),
    ("linear-stretch", stretch .linearStretch),
    ("liquid-rescale", resizeBy .liquidRescale),
    ("lowlight-color", comparisonColor "compare:lowlight-color"),
    ("matte", matte),
    ("median", byGeometry (overWindow .median)),
    ("mode", byGeometry (overWindow .mode)),
    ("modulate", modulate),
    ("monochrome", always (.type .bilevel)),
    ("morphology", morphology),
    ("motion-blur", motionBlur),
    ("negate", negate),
    ("noise", noise),
    ("normalize", always .normalize),
    ("opaque", replaceColor),
    ("ordered-dither", orderedDither),
    ("paint", paint),
    ("polaroid", polaroid),
    ("posterize", posterize),
    ("radial-blur", radialBlur),
    ("raise", raise),
    ("random-threshold", randomThreshold),
    ("repage", repage),
    ("resample", resample),
    ("resize", resize),
    ("roll", roll),
    ("rotate", rotate),
    ("sample", resizeBy .sample),
    ("scale", resizeBy .scale),
    ("segment", segment),
    ("selective-blur", selectiveBlur),
    ("separate", separate),
    ("sepia-tone", byChannelValue .sepiaTone),
    ("set", set),
    ("shade", shade),
    ("shadow", shadow),
    ("sharpen", sharpen false),
    ("shave", shave),
    ("shear", shear),
    ("sigmoidal-contrast", sigmoidalContrast),
    ("sketch", sketch),
    ("solarize", byChannelValue .solarize),
    ("sparse-color", sparseColor),
    ("splice", splice),
    ("spread", spread),
    ("statistic", statistic),
    ("strip", strip),
    ("swirl", swirl),
    ("threshold", threshold),
    ("thumbnail", resizeBy .thumbnail),
    ("tint", tint),
    ("transform", affine),
    ("transparent", transparent),
    ("transpose", always .transpose),
    ("transverse", always .transverse),
    ("trim", trim),
    ("type", type),
    ("unique", unique),
    ("unique-colors", always .uniqueColors),
    ("unsharp", unsharp),
    ("verbose", verbose),
    ("vignette", vignette),
    ("wave", wave),
    ("white-threshold", byChannelValue .whiteThreshold) ]

/-- The operator of a name. -/
def named? (name : String) : Option ImageOperator :=
  all.lookup name

end ImageOperator
end Darkroom
