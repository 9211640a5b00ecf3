import Darkroom.Description.Basic
import Darkroom.Image

/-!
# Descriptions of images

The pixels of an image as a text of runs, what identifies the image, and all its attributes.
-/

namespace Darkroom

/-- The four channels of a color in hexadecimal, in lower case. -/
def Color.quad (c : Color) : String :=
  let pairs := Color.hexPair c.red ++ Color.hexPair c.green ++ Color.hexPair c.blue ++
    Color.hexPair c.alpha
  String.ofList (Text.lower pairs)

namespace Raster

/-- The runs of equal colors, in order. -/
def runs (r : Raster) : List (Color × Nat) :=
  r.toList.foldr
    (fun c runs =>
      match runs with
      | (d, n) :: rest => if c = d then (c, n + 1) :: rest else (c, 1) :: runs
      | [] => [(c, 1)])
    []

/-- A run as a text; a run of one color has no count. -/
def runText : Color × Nat → String
  | (c, 1) => c.quad
  | (c, n) => c.quad ++ "*" ++ toString n

end Raster

namespace Image

/-- The greatest number of runs that are written out. -/
def runLimit : Nat := 64

/-- The runs of the pixels, or the digest of an image with too many of them. -/
def pixelText (image : Image) : String :=
  let runs := image.raster.runs
  if runLimit < runs.length then "sha256:" ++ image.signature
  else " ".intercalate (runs.map Raster.runText)

open Detail in
/-- What identifies an image: its name, format, scene, size, page, layout and pixels. -/
def brief (image : Image) : Detail :=
  list [ text image.filename, text image.format, longWord image.scene,
    text (toString image.size.width ++ "x" ++ toString image.size.height), text image.page.text,
    text image.bitmap.layout.name, text image.pixelText ]

open Detail in
/-- All attributes of an image. -/
def details (image : Image) : Details :=
  [ ("brief", image.brief), ("ping", truth image.pinged),
    ("background", color image.background), ("border_color", color image.borderColor),
    ("matte_color", color image.matteColor), ("transparent_color", color image.transparentColor),
    ("colorspace", keyword image.colorspace), ("compose", keyword image.compose),
    ("compression", keyword image.compression), ("gravity", keyword image.gravity),
    ("interlace", keyword image.interlace), ("endian", keyword image.endian),
    ("orientation", keyword image.orientation), ("units", keyword image.units),
    ("dispose", keyword image.dispose), ("filter", keyword image.filter),
    ("interpolate", keyword image.interpolate), ("channels", text image.channels.text),
    ("depth", word image.depth), ("quality", option word image.quality),
    ("density", option (fun (x, y) => numbers [x, y]) image.density),
    ("delay", longWord image.delay), ("ticks", longWord image.ticksPerSecond),
    ("iterations", longWord image.iterations), ("fuzz", number image.fuzz),
    ("taint", truth image.tainted), ("properties", table image.properties),
    ("artifacts", table image.artifacts), ("is_null", truth image.isNull),
    ("page_unset", truth image.page.isUnset), ("extension", option text image.extension?) ]

end Image
end Darkroom
