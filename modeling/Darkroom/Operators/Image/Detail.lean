import Darkroom.Operators.Image.Basic

/-!
# Operators on detail

Blurring, sharpening, edges, relief, noise and order statistics.  Most take a radius and a spread;
the spread is one when it is not given.
-/

namespace Darkroom
namespace ImageOperator

/-- A blur by radius and spread. -/
def blur (kind : BlurKind) : ImageOperator :=
  byGeometry fun g => .blur kind g.rhoValue (sigmaOr g 1.0)

/-- A sharpening by radius and spread. -/
def sharpen (adaptive : Bool) : ImageOperator :=
  byGeometry fun g => .sharpen g.rhoValue (sigmaOr g 1.0) adaptive

/-- A drawing in charcoal. -/
def charcoal : ImageOperator :=
  byGeometry fun g => .charcoal g.rhoValue (sigmaOr g 1.0)

/-- Only the edges. -/
def edge : ImageOperator :=
  byGeometry fun g => .edge g.rhoValue

/-- A relief. -/
def emboss : ImageOperator :=
  byGeometry fun g => .emboss g.rhoValue (sigmaOr g 1.0)

/-- A blur along an angle. -/
def motionBlur : ImageOperator :=
  byGeometry fun g => .motionBlur g.rhoValue (sigmaOr g 1.0) g.xiValue

/-- A blur around the center. -/
def radialBlur : ImageOperator :=
  byGeometry fun g => .radialBlur g.rhoValue

/-- A blur that spares strong contrasts. -/
def selectiveBlur : ImageOperator :=
  byGeometry fun g =>
    .selectiveBlur g.rhoValue (sigmaOr g 1.0) (scaled g g.xiValue greatestValue)

/-- A pencil sketch. -/
def sketch : ImageOperator :=
  byGeometry fun g => .sketch g.rhoValue (sigmaOr g 1.0) g.xiValue

/-- Pixels moved at random. -/
def spread : ImageOperator :=
  byGeometry fun g => .spread g.rhoValue

/-- A swirl around the center. -/
def swirl : ImageOperator :=
  byGeometry fun g => .swirl g.rhoValue

/-- Pixels drawn toward the center. -/
def implode : ImageOperator :=
  byGeometry fun g => .implode g.rhoValue

/-- Columns moved along a wave. -/
def wave : ImageOperator :=
  fun _ image inv => do
    let g ← inv.geometry
    work (.wave g.rhoValue (sigmaOr g 1.0) image.background)

/-- A sharpening by the difference from a blur. -/
def unsharp : ImageOperator :=
  byGeometry fun g =>
    .unsharp g.rhoValue (sigmaOr g 1.0) (g.xi.getD 1.0) (g.psi.getD 0.05)

/-- A painting in oil. -/
def paint : ImageOperator :=
  byGeometry fun g => .oilPaint g.rhoValue

/-- A relief lit from a direction. -/
def shade : ImageOperator :=
  fun _ _ inv => do
    let g ← inv.geometry
    work (.shade g.rhoValue (sigmaOr g 1.0) inv.normal)

/-- A statistic over a window. -/
def overWindow (kind : Statistic) (g : Geometry) : Transform :=
  .statistic kind (sizeAtLeast 1.0 g)

/-- The statistic that the first argument names, over the window of the second. -/
def statistic : ImageOperator :=
  fun _ _ inv => do
    let kind ← inv.keyword Statistic
    work (overWindow kind (← Invocation.geometryOf (← inv.second)))

/-- Noise reduced over a window, or noise of a kind added. -/
def noise : ImageOperator :=
  fun view _ inv => do
    if inv.normal then work (overWindow .nonpeak (← inv.geometry))
    else
      let kind ← inv.keyword Noise
      work (.noise kind ((view.settings.image.number? "attenuate").getD 1.0))

/-- A morphological method, perhaps repeated, with a kernel that is not blank. -/
def morphology : ImageOperator :=
  fun _ _ inv => do
    let text ← inv.first
    let (name, iterations) ← match Text.cut? ':' text.toList with
      | some (name, count) => do
          let iterations ← Invocation.wordOf Integer.signed64? (String.ofList count)
          pure (String.ofList name, iterations)
      | none => pure (text, 1)
    let method ← Invocation.keywordOf Morphology name
    let kernel ← inv.second
    if (trimmed kernel).isEmpty then throw (.invalidArgument kernel)
    work (.morphology method iterations kernel)

/-- A convolution with a kernel. -/
def convolve : ImageOperator :=
  fun _ _ inv => do work (.morphology .convolve 1 (← inv.first))

end ImageOperator
end Darkroom
