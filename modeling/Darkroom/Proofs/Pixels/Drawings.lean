import Darkroom.Pixels.Compose
import Darkroom.Proofs.Number.Arithmetic
import Darkroom.Proofs.Pixels.Raster

/-!
# Drawings on a canvas

Rasters are drawn onto a canvas one after the other, each at a place of its own and in its own way.
A pixel of the canvas is composed in turn with the pixels that cover it; drawings that do not cover
it do not matter.  An opaque color over any other is itself, exactly: the coverage of the layers is
one, what lies under the color is weighed by zero, and the fractions of a byte are read back as that
byte.
-/

namespace Darkroom

/-! ## Opaque layers -/

namespace Blend

/-- The fraction that a byte stands for has no sign and no positive exponent. -/
theorem isFraction_byte :
    ∀ v : UInt8, Binary.IsFraction (v.toFloat / 255.0) := by
  decide +kernel

/-- The fraction of a byte, mixed with nothing, is read back as the byte. -/
theorem nearestByte_mixed :
    ∀ v : UInt8, nearestByte ((v.toFloat / 255.0 * 1.0 + 0.0) / 1.0 * 255.0) = v := by
  decide +kernel

/-- An opaque color over any other is itself. -/
theorem pixel_over_of_opaque
    {source : Color}
    (solid : source.alpha = 255)
    (destination : Color) :
    pixel .over destination source = source := by
  have full : (255 : UInt8).toFloat / 255.0 = (1.0 : Float) := by decide +kernel
  have rest : (1.0 : Float) - 1.0 = 0.0 := by decide
  have whole : (1.0 : Float) + 0.0 = 1.0 := by decide +kernel
  have positive : ¬ (1.0 : Float) ≤ 0.0 := by decide
  have top : nearestByte ((1.0 : Float) * 255.0) = 255 := by decide
  have covered : coverage (ofColor source) (ofColor destination) = 1.0 := by
    change source.alpha.toFloat / 255.0 +
      destination.alpha.toFloat / 255.0 * (1.0 - source.alpha.toFloat / 255.0) = 1.0
    rw [solid, full, rest, (isFraction_byte _).mul_zero, whole]
  have mixed : ∀ t b : UInt8,
      nearestByte ((t.toFloat / 255.0 * (source.alpha.toFloat / 255.0) +
        b.toFloat / 255.0 * (destination.alpha.toFloat / 255.0) *
          (1.0 - source.alpha.toFloat / 255.0)) / 1.0 * 255.0) = t := by
    -- The color below is weighed by zero, and that is zero because its product is finite.
    intro t b
    rw [solid, full, rest, (isFraction_byte b).mul_mul_zero (isFraction_byte _)]
    exact nearestByte_mixed t
  obtain ⟨red, green, blue, alpha⟩ := source
  unfold pixel fractions cover
  dsimp only
  rw [covered, if_neg positive]
  unfold toColor ofColor
  dsimp only
  rw [mixed, mixed, mixed, top]
  exact congrArg _ solid.symm

end Blend

/-! ## Drawing -/

namespace Raster

theorem get_drawOnto
    (source : Raster)
    {destination : Raster}
    (x y : Int64)
    (compose : Compose)
    {column row : Nat}
    (inside : destination.size.Contains column row) :
    (source.drawOnto destination x y compose).get column row =
      match source.get? ((column : Int) - x.toInt) ((row : Int) - y.toInt) with
      | some s => Blend.pixel compose (destination.get column row) s
      | none => destination.get column row :=
  get_mapPlaces _ inside

end Raster

/-! ## Drawings -/

/-- A raster that is drawn at a place. -/
structure Drawing where
  /-- The colors. -/
  raster : Raster
  /-- The horizontal place of the corner. -/
  x : Int64
  /-- The vertical place of the corner. -/
  y : Int64
  /-- How it is composed onto what is under it. -/
  compose : Compose

namespace Drawing

/-- The rectangle that a drawing covers. -/
def rect (d : Drawing) : Rect :=
  ⟨d.x, d.y, d.raster.size.width, d.raster.size.height⟩

/-- A canvas with a drawing on it. -/
def onto (canvas : Raster) (d : Drawing) : Raster :=
  d.raster.drawOnto canvas d.x d.y d.compose

/-- The color of a place when a drawing is there. -/
def paint (x y : Int) (under : Color) (d : Drawing) : Color :=
  if d.rect.Covers x y then
    Blend.pixel d.compose under (d.raster.get (x - d.x.toInt).toNat (y - d.y.toInt).toNat)
  else under

theorem covers_rect_iff
    {d : Drawing}
    {x y : Int} :
    d.rect.Covers x y ↔ (d.x.toInt ≤ x ∧ x < d.x.toInt + d.raster.width) ∧
      d.y.toInt ≤ y ∧ y < d.y.toInt + d.raster.height :=
  Iff.rfl

theorem get_onto
    {canvas : Raster}
    {x y : Nat}
    (inside : canvas.size.Contains x y)
    (d : Drawing) :
    (onto canvas d).get x y = paint x y (canvas.get x y) d := by
  rw [onto, Raster.get_drawOnto _ _ _ _ inside, paint, Raster.get?]
  by_cases covered : d.rect.Covers x y
  · have place := covers_rect_iff.mp covered
    rw [if_pos covered, if_pos (by omega)]
  · have place := mt covers_rect_iff.mpr covered
    rw [if_neg covered, if_neg (by omega)]

theorem size_foldl_onto
    (drawings : List Drawing)
    (canvas : Raster) :
    (drawings.foldl onto canvas).size = canvas.size := by
  induction drawings generalizing canvas with
  | nil => rfl
  | cons d rest inductionHypothesis => exact inductionHypothesis (onto canvas d)

/-- A pixel of a canvas is composed in turn with the drawings. -/
theorem get_foldl_onto
    (drawings : List Drawing)
    {canvas : Raster}
    {x y : Nat}
    (inside : canvas.size.Contains x y) :
    (drawings.foldl onto canvas).get x y = drawings.foldl (paint x y) (canvas.get x y) := by
  induction drawings generalizing canvas with
  | nil => rfl
  | cons d rest inductionHypothesis =>
      have kept : (onto canvas d).size.Contains x y := inside
      rw [List.foldl_cons, List.foldl_cons, inductionHypothesis kept, get_onto inside]

end Drawing
end Darkroom
