import Darkroom.Geometry.Page
import Darkroom.Keyword.Composition
import Darkroom.Number.Scalar

/-!
# Rectangles and sizes

Where operators cut, place and scale: rectangles clipped to an image, the sizes that a resize
geometry gives, the tiles of a crop, placement by gravity, and the box around a set of layers.
-/

namespace Darkroom

/-- A size in pixels. -/
structure Size where
  /-- The width. -/
  width : UInt32
  /-- The height. -/
  height : UInt32
deriving DecidableEq, Repr, Inhabited

/-- An unsigned word as a signed one of twice its length. -/
def wide (n : UInt32) : Int64 :=
  n.toUInt64.toInt64

/-- The low 32 bits of a signed word. -/
def narrow (n : Int64) : UInt32 :=
  n.toUInt64.toUInt32

/-- A rectangle in image coordinates; its corner may lie outside the image. -/
structure Rect where
  /-- The horizontal place of the corner. -/
  x : Int64
  /-- The vertical place of the corner. -/
  y : Int64
  /-- The width. -/
  width : UInt32
  /-- The height. -/
  height : UInt32
deriving DecidableEq, Repr, Inhabited

namespace Rect

/-- The part of a rectangle inside an image, if any. -/
def clipTo (r : Rect) (bounds : Size) : Option Rect :=
  let left := max r.x 0
  let top := max r.y 0
  let right := min (r.x + wide r.width) (wide bounds.width)
  let bottom := min (r.y + wide r.height) (wide bounds.height)
  if right ≤ left ∨ bottom ≤ top then none
  else some ⟨left, top, narrow (right - left), narrow (bottom - top)⟩

end Rect

/-- The place of an object on a canvas: `offset` counts inward from the edges gravity points to. -/
def gravityOffset (gravity : Gravity) (canvas object : Size) (dx dy : Int64) : Int64 × Int64 :=
  let slackX := wide canvas.width - wide object.width
  let slackY := wide canvas.height - wide object.height
  let x := match gravity with
    | .northWest | .west | .southWest | .undefined | .forget => dx
    | .north | .center | .south => slackX / 2 + dx
    | .northEast | .east | .southEast => slackX - dx
  let y := match gravity with
    | .northWest | .north | .northEast | .undefined | .forget => dy
    | .west | .center | .east => slackY / 2 + dy
    | .southWest | .south | .southEast => slackY - dy
  (x, y)

/-- The smallest box that holds every layer at its place. -/
def layerBounds : List (Page × Size) → Rect
  | [] => ⟨0, 0, 0, 0⟩
  | layers@(_ :: _) =>
      let extreme (pick : Int64 → Int64 → Int64) (start : Int64)
          (edge : Page × Size → Int64) : Int64 :=
        layers.foldl (fun n layer => pick n (edge layer)) start
      let left := extreme min Int64.maxValue fun (page, _) => page.x
      let top := extreme min Int64.maxValue fun (page, _) => page.y
      let right := extreme max Int64.minValue fun (page, size) => page.x + wide size.width
      let bottom := extreme max Int64.minValue fun (page, size) => page.y + wide size.height
      ⟨left, top, narrow (right - left), narrow (bottom - top)⟩

end Darkroom
