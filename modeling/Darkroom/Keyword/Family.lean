import Darkroom.Keyword.Coding
import Darkroom.Keyword.Composition
import Darkroom.Keyword.Drawing
import Darkroom.Keyword.Operation
import Darkroom.Keyword.Topic

/-!
# The families by name

Every keyword family has a name under which its words can be listed.
-/

namespace Darkroom
namespace Keyword

/-- The listed spellings of channel selections. -/
def channelNames : List String :=
  ["All", "Alpha", "Blue", "Gray", "Green", "Red", "RGB", "RGBA"]

/-- The families by name, in the order of listings. -/
def families : List (String × List String) :=
  [ ("alpha", names AlphaMode), ("channel", channelNames), ("colorspace", names Colorspace),
    ("compose", names Compose), ("compress", names Compression), ("direction", names Direction),
    ("dispose", names Dispose), ("distort", names Distortion), ("dither", names Dither),
    ("endian", names Endian), ("evaluate", names Evaluation), ("filter", names Filter),
    ("function", names ToneFunction), ("gravity", names Gravity), ("intent", names Intent),
    ("interlace", names Interlace), ("interpolate", names Interpolate),
    ("layers", names LayerMethod), ("morphology", names Morphology), ("noise", names Noise),
    ("orientation", names Orientation), ("resource", names Resource),
    ("sparse-color", names SparseMethod), ("statistic", names Statistic),
    ("stretch", names Stretch), ("style", names Style), ("type", names ImageType),
    ("units", names Units), ("virtual-pixel", names VirtualPixel) ]

/-- The spellings of a family, by its name in any case. -/
def table? (topic : String) : Option (List String) :=
  let name := lowered topic
  families.lookup (if name = "compression" then "compress" else name)

end Keyword
end Darkroom
