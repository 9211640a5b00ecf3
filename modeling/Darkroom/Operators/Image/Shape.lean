import Darkroom.Geometry.Fit
import Darkroom.Geometry.Tiles
import Darkroom.Operators.Image.Basic

/-!
# Operators on shape

Resizing, cutting, padding, turning and the page of an image.
-/

namespace Darkroom
namespace ImageOperator

/-- A resize to the size a region asks for; at its own size only a thumbnail is made. -/
def resizeTo (r : Region) (image : Image) (method : Resampling) : Except Fault ImagePlan :=
  let size := resizeDimensions image.size r
  if size = image.size ∧ method ≠ .thumbnail then unchanged image
  else work (.resize size method)

/-- A resize by a fixed method. -/
def resizeBy (method : Resampling) : ImageOperator :=
  fun _ image inv => do resizeTo (← inv.region) image method

/-- A resize by the filter of the image. -/
def resize : ImageOperator :=
  fun _ image inv => do resizeTo (← inv.region) image (.filtered image.filter)

/-- A resize that keeps the size on paper at another density. -/
def resample : ImageOperator :=
  fun _ image inv => do
    let g ← inv.geometry
    let across := g.rhoValue
    let down := sigmaOrRho g
    if across ≤ 0.0 || down ≤ 0.0 then throw (.invalidGeometry (← inv.first))
    let (dx, dy) := image.density.getD (72.0, 72.0)
    let side (n : UInt32) (target density : Float) : UInt32 :=
      max 1 (nearestUInt32 (n.toFloat * target / density))
    let size : Size := ⟨side image.size.width across dx, side image.size.height down dy⟩
    .ok (.apply (.resize size (.filtered image.filter)) fun image =>
      { image with density := some (across, down) })

/-- A turn without a background. -/
def turn (degrees : Float) : Transform :=
  .rotate degrees Color.transparent

/-- What brings an image upright. -/
def uprighting? : Orientation → Option Transform
  | .topRight => some .flop
  | .bottomRight => some (turn 180.0)
  | .bottomLeft => some .flip
  | .leftTop => some .transpose
  | .rightTop => some (turn 90.0)
  | .rightBottom => some .transverse
  | .leftBottom => some (turn 270.0)
  | .topLeft | .undefined => none

/-- The image brought upright. -/
def autoOrient : ImageOperator :=
  fun _ image _ =>
    match uprighting? image.orientation with
    | some op => .ok (.apply op fun image => { image with orientation := .topLeft })
    | none => unchanged image

/-- A border. -/
def border : ImageOperator :=
  fun view image inv => do
    let g ← inv.geometry
    let compose := (view.settings.image.keyword? Compose "compose").getD .over
    work (.border (margin g image.size) image.borderColor compose)

/-- The rectangle of a region; a missing side is that of the image. -/
def rectOf (r : Region) (size : Size) : Rect where
  x := r.x
  y := r.y
  width := lengthAtLeast 0.0 (r.width.getD size.width.toFloat)
  height := lengthAtLeast 0.0 ((r.height.orElse fun _ => r.width).getD size.height.toFloat)

/-- Columns and rows cut away. -/
def chop : ImageOperator :=
  fun _ image inv => do work (.chop (rectOf (← inv.region) image.size))

/-- A part cut out, or tiles. -/
def crop : ImageOperator :=
  fun _ image inv => do
    let regions := cropRegions image.size (← inv.region)
    if regions.isEmpty then throw (.invalidGeometry (← inv.first))
    work (.crop regions)

/-- A distortion by a method and its numbers. -/
def distort : ImageOperator :=
  fun _ _ inv => do
    let method ← inv.keyword Distortion
    work (.distort method (← numbers (← inv.second)) (!inv.normal))

/-- The image on a canvas of another size.  Under a gravity the offset counts from where gravity
puts the image. -/
def extent : ImageOperator :=
  fun _ image inv => do
    let r ← inv.region
    let side (asked : Option Float) (n : UInt32) : UInt32 :=
      ((asked.filter fun v => 0.0 < v).map truncUInt32).getD n
    let size : Size := ⟨side r.width image.size.width, side r.height image.size.height⟩
    let (x, y) := match image.gravity with
      | .undefined | .forget => (r.x, r.y)
      | gravity =>
          let (placeX, placeY) := gravityOffset gravity size image.size 0 0
          (r.x - placeX, r.y - placeY)
    work (.extent size x y image.background)

/-- A beveled frame. -/
def frame : ImageOperator :=
  fun _ image inv => do
    let g ← inv.geometry
    work (.frame (sizeAtLeast 0.0 g) (truncInt64 g.xiValue) (truncInt64 g.psiValue)
      image.matteColor image.compose)

/-- A place for composition when the geometry has an offset, else a resize.  Taken back, the place
is forgotten. -/
def geometry : ImageOperator :=
  fun view image inv => do
    if inv.normal then
      let r ← inv.region
      if r.hasOffset then
        let text ← inv.first
        unchanged { image with artifacts := image.artifacts.insert "geometry" text }
      else resize view image inv
    else unchanged { image with artifacts := image.artifacts.erase "geometry" }

/-- Lit and shaded edges. -/
def raise : ImageOperator :=
  fun _ _ inv => do work (.raise (sizeAtLeast 0.0 (← inv.geometry)) inv.normal)

/-- Another page, or none. -/
def repage : ImageOperator :=
  fun _ image inv => do
    if inv.normal then
      let r ← inv.region
      let page := image.page
      let page := match r.width with
        | some width =>
            { page with
              width := lengthAtLeast 0.0 width
              height := lengthAtLeast 0.0 (r.height.getD width) }
        | none => page
      let page := if r.hasOffset then { page with x := r.x, y := r.y } else page
      unchanged { image with page }
    else unchanged { image with page := Page.unset }

/-- Pixels moved around the edges. -/
def roll : ImageOperator :=
  fun _ _ inv => do
    let r ← inv.region
    work (.roll r.x r.y)

/-- A turn; marked with `>` only of broad images, with `<` only of tall ones. -/
def rotate : ImageOperator :=
  fun _ image inv => do
    let g ← inv.geometry
    let size := image.size
    if (g.modifiers.greater && size.width ≤ size.height) ||
        (g.modifiers.less && size.height ≤ size.width) then unchanged image
    else work (.rotate g.rhoValue image.background)

/-- The edges cut away. -/
def shave : ImageOperator :=
  fun _ image inv => do work (.shave (margin (← inv.geometry) image.size))

/-- A shear by two angles. -/
def shear : ImageOperator :=
  fun _ image inv => do
    let g ← inv.geometry
    work (.shear g.rhoValue (sigmaOrRho g) image.background)

/-- Columns and rows inserted. -/
def splice : ImageOperator :=
  fun _ image inv => do work (.splice (rectOf (← inv.region) image.size) image.background)

/-- The map for drawing applied to the whole image. -/
def affine : ImageOperator :=
  fun view _ _ => work (.affine view.settings.drawing.affine)

/-- The edges that look like the first pixel cut away. -/
def trim : ImageOperator :=
  fun _ image _ => work (.trim image.fuzz)

/-- Edges faded out, a tenth of the image unless given. -/
def vignette : ImageOperator :=
  fun _ image inv => do
    let g ← inv.geometry
    let place (given? : Option Float) (side : UInt32) : Int64 :=
      let side := side.toFloat
      truncInt64 ((given?.map fun v => scaled g v side).getD (side * 0.1))
    work (.vignette g.rhoValue (sigmaOr g 1.0) (place g.xi image.size.width)
      (place g.psi image.size.height) image.background)

/-- A shadow, four pixels away unless given. -/
def shadow : ImageOperator :=
  byGeometry fun g =>
    .shadow g.rhoValue (sigmaOr g 1.0) (truncInt64 (g.xi.getD 4.0)) (truncInt64 (g.psi.getD 4.0))

end ImageOperator
end Darkroom
