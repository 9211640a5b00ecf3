import Darkroom.Digest.SipHash
import Darkroom.Operators.Image.SparseColor

/-!
# Operators on attributes, text and paint

Artifacts and properties, printed descriptions, drawn text, and fills.
-/

namespace Darkroom
namespace ImageOperator

/-- The depth of the settings, eight bits when none is set. -/
def depth : ImageOperator :=
  fun view image _ => unchanged { image with depth := view.settings.image.depth.getD 8 }

/-- Properties and profiles dropped. -/
def strip : ImageOperator :=
  fun _ image _ => unchanged image.strip

/-- The image with an artifact, or without it. -/
def putArtifact (image : Image) (key : String) : Option String → Image
  | some value => { image with artifacts := image.artifacts.insert key value }
  | none => { image with artifacts := image.artifacts.erase key }

/-- Features to describe. -/
def features : ImageOperator :=
  fun _ image inv => do
    if inv.normal then
      let image := putArtifact image "identify:features" (← inv.first)
      unchanged (putArtifact image "verbose" "true")
    else unchanged (putArtifact image "identify:features" none)

/-- Different colors to count. -/
def unique : ImageOperator :=
  fun _ image inv =>
    if inv.normal then
      unchanged
        (putArtifact (putArtifact image "identify:unique-colors" "true") "verbose" "true")
    else unchanged (putArtifact image "identify:unique-colors" none)

/-- A color for comparisons. -/
def comparisonColor (key : String) : ImageOperator :=
  fun _ image inv => do
    if inv.normal then
      let text ← inv.first
      let _ ← Invocation.colorOf text
      unchanged (putArtifact image key text)
    else unchanged (putArtifact image key none)

/-- Details to describe. -/
def verbose : ImageOperator :=
  fun _ image inv =>
    unchanged (putArtifact image "verbose" (if inv.normal then some "true" else none))

/-- A property set or removed.  A key behind `option:` is an option and an artifact; one behind
`registry:` is not kept. -/
def set : ImageOperator :=
  fun view image inv => do
    let key ← inv.first
    if (Text.after? "registry:".toList key.toList).isSome then unchanged image
    else match Text.after? "option:".toList key.toList with
      | some name => do
          let name := String.ofList name
          let value? ← if inv.normal then inv.second.map some else pure none
          .ok (.setOption name value? (putArtifact image name value?))
      | none => do
          if inv.normal then
            unchanged (image.setProperty key (← view.expand image (← inv.second)))
          else unchanged { image with properties := image.properties.erase key }

/-- The angle in radians, brought into one turn. -/
def radians (degrees : Float) : Float :=
  positiveRemainder degrees 360.0 *
    Float.ofScientific 3141592653589793238462643383279 true 30 / 180.0

/-- A text at a place, turned by two angles. -/
def annotate : ImageOperator :=
  fun view image inv => do
    let g ← inv.geometry
    let a := radians g.rhoValue
    let b := radians (sigmaOrRho g)
    let affine : Affine := ⟨a.cos, b.sin, -a.sin, b.cos, 0.0, 0.0⟩
    let text ← view.expand image (← inv.second)
    work (.annotate text g.xiValue g.psiValue { view.settings.drawing with affine })

/-- A shape. -/
def draw : ImageOperator :=
  fun view _ inv => do work (.draw (← inv.first) view.settings.drawing)

/-- The tilt of a snapshot whose angle was not given: between minus eleven and eleven degrees, the
same each time for one image. -/
def tilt (image : Image) : Float :=
  let message :=
    image.filename.toUTF8.toList ++ [0xff] ++ SipHash.littleEndian image.scene
  let fraction := (SipHash.hash message % 10000).toFloat / 10000.0
  22.5 * (fraction - 0.5)

/-- A snapshot at an angle, with the caption of the settings. -/
def polaroid : ImageOperator :=
  fun view image inv => do
    let angle ← if inv.normal then inv.geometry.map Geometry.rhoValue else pure (tilt image)
    let caption ← match view.settings.image.option? "caption" with
      | some text => (view.expand image text).map some
      | none => pure none
    work (.polaroid angle caption view.settings.drawing)

/-- A description printed by the format of the settings, or as a summary line. -/
def identify : ImageOperator :=
  fun view image _ => do
    match view.settings.image.option? "format" with
    | some format => .ok (.print (← view.expand image format))
    | none => .ok (.print (image.summary ++ "\n"))

/-- An area filled from a seed. -/
def floodfill : ImageOperator :=
  fun view image inv => do
    let r ← inv.region
    let target ← Invocation.colorOf (← inv.second)
    work (.floodfill r.x r.y target view.settings.drawing.fill image.fuzz (!inv.normal))

/-- Colors computed from colored places. -/
def sparseColor : ImageOperator :=
  fun _ image inv => do
    let method ← inv.keyword SparseMethod
    work (.sparseColor method image.channels
      (← SparseColor.parse (← inv.second) image.channels))

end ImageOperator
end Darkroom
