import Darkroom.Description.Image
import Darkroom.Settings

/-!
# Descriptions of settings

The attributes of the settings for images, for drawing and for reducing colors.
-/

namespace Darkroom

open Detail

/-- The attributes of the settings for images. -/
def ImageSettings.details (s : ImageSettings) : Details :=
  [ ("options", table s.options), ("adjoin", truth s.adjoin), ("antialias", truth s.antialias),
    ("authenticate", option text s.authenticate), ("background", color s.background),
    ("border_color", color s.borderColor), ("matte_color", color s.matteColor),
    ("transparent_color", color s.transparentColor), ("channels", text s.channels.text),
    ("colorspace", keyword s.colorspace), ("compression", keyword s.compression),
    ("debug", truth s.debug), ("density", option text s.density), ("depth", option word s.depth),
    ("dither", truth s.dither), ("endian", keyword s.endian), ("extract", option text s.extract),
    ("font", option text s.font), ("fuzz", number s.fuzz), ("image_type", keyword s.imageType),
    ("interlace", keyword s.interlace), ("monitor", truth s.monitor),
    ("orientation", keyword s.orientation), ("page", option text s.page), ("ping", truth s.ping),
    ("pointsize", number s.pointSize), ("quality", option word s.quality),
    ("quiet", truth s.quiet), ("sampling_factor", option text s.samplingFactor),
    ("scene", longWord s.scene), ("number_scenes", longWord s.sceneCount),
    ("size", option text s.size), ("size_dimensions", option Detail.size s.sizeInPixels?),
    ("synchronize", truth s.synchronize), ("texture", option text s.texture),
    ("units", keyword s.units), ("verbose", truth s.verbose), ("view", option text s.view),
    ("virtual_pixel", keyword s.virtualPixel) ]

/-- The attributes of the settings for drawing, the numbers of the map as `entry` shows them. -/
def DrawingSettings.detailsWith (entry : Float → Detail) (d : DrawingSettings) : Details :=
  [ ("affine", list (d.affine.toList.map entry)), ("antialias", truth d.antialias),
    ("text_antialias", truth d.textAntialias), ("border_color", color d.borderColor),
    ("compose", keyword d.compose), ("direction", keyword d.direction),
    ("encoding", option text d.encoding), ("family", option text d.family),
    ("fill", color d.fill), ("fill_pattern", option Image.brief d.fillPattern),
    ("font", option text d.font), ("gravity", keyword d.gravity),
    ("interline_spacing", number d.interlineSpacing),
    ("interword_spacing", number d.interwordSpacing), ("kerning", number d.kerning),
    ("pointsize", number d.pointSize), ("render", truth d.render),
    ("stretch", keyword d.stretch), ("stroke", color d.stroke),
    ("stroke_pattern", option Image.brief d.strokePattern),
    ("stroke_width", number d.strokeWidth), ("style", keyword d.style),
    ("undercolor", color d.underColor), ("weight", word d.weight) ]

/-- The attributes of the settings for drawing. -/
def DrawingSettings.details : DrawingSettings → Details :=
  detailsWith number

/-- The attributes of the settings for reducing colors. -/
def QuantizingSettings.details (q : QuantizingSettings) : Details :=
  [ ("number_colors", longWord q.colorCount), ("tree_depth", longWord q.treeDepth),
    ("dither", truth q.dither), ("dither_method", keyword q.ditherMethod),
    ("colorspace", option keyword q.colorspace), ("measure_error", truth q.measureError) ]

end Darkroom
