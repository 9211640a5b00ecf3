import Darkroom.Image

/-!
# Composition

How a source pixel combines with the pixel under it, and how a raster is drawn onto another at an
offset.  Pixels outside the source stay.
-/

namespace Darkroom
namespace Blend

/-- A pixel as fractions. -/
structure Fractions where
  /-- Red. -/
  red : Float
  /-- Green. -/
  green : Float
  /-- Blue. -/
  blue : Float
  /-- Coverage. -/
  alpha : Float

/-- The fractions of a color. -/
def ofColor (c : Color) : Fractions :=
  let part (v : UInt8) : Float := v.toFloat / 255.0
  ⟨part c.red, part c.green, part c.blue, part c.alpha⟩

/-- The nearest color. -/
def toColor (p : Fractions) : Color :=
  let byte (v : Float) : UInt8 := nearestByte (v * 255.0)
  ⟨byte p.red, byte p.green, byte p.blue, byte p.alpha⟩

/-- Nothing at all. -/
def nothing : Fractions := ⟨0.0, 0.0, 0.0, 0.0⟩

/-- The coverage of two layers together. -/
def coverage (source destination : Fractions) : Float :=
  source.alpha + destination.alpha * (1.0 - source.alpha)

/-- Each color channel on its own; the layers cover together. -/
def byChannel (f : Float → Float → Float) (s d : Fractions) : Fractions :=
  ⟨f s.red d.red, f s.green d.green, f s.blue d.blue, coverage s d⟩

/-- One layer over another. -/
def cover (top bottom : Fractions) : Fractions :=
  let a := coverage top bottom
  if a ≤ 0.0 then nothing
  else
    let mix (t b : Float) : Float :=
      (t * top.alpha + b * bottom.alpha * (1.0 - top.alpha)) / a
    ⟨mix top.red bottom.red, mix top.green bottom.green, mix top.blue bottom.blue, a⟩

/-- The combination of a source with what lies under it. -/
def fractions (compose : Compose) (d s : Fractions) : Fractions :=
  match compose with
  | .copy => s
  | .destination => d
  | .clear => nothing
  | .multiply => byChannel (fun s d => s * d) s d
  | .screen => byChannel (fun s d => s + d - s * d) s d
  | .plus => byChannel (fun s d => leastFloat (s + d) 1.0) s d
  | .minus => byChannel (fun s d => greatestFloat (d - s) 0.0) s d
  | .difference => byChannel (fun s d => (s - d).abs) s d
  | .darken => byChannel leastFloat s d
  | .lighten => byChannel greatestFloat s d
  | .destinationOver => cover d s
  | _ => cover s d

/-- A source pixel combined with the pixel under it. -/
def pixel (compose : Compose) (destination source : Color) : Color :=
  toColor (fractions compose (ofColor destination) (ofColor source))

end Blend

/-- A raster drawn onto another with its corner at a place. -/
def Raster.drawOnto (source destination : Raster) (x y : Int64) (compose : Compose) : Raster :=
  destination.mapPlaces fun column row c =>
    match source.get? ((column : Int) - x.toInt) ((row : Int) - y.toInt) with
    | some s => Blend.pixel compose c s
    | none => c

end Darkroom
