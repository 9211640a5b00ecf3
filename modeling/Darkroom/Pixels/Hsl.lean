import Darkroom.Color.Basic
import Darkroom.Number.Scalar

/-!
# Hue, saturation and lightness

The conversion of colors to hue, saturation and lightness and back, over any scalars.  Hue is a
fraction of the circle, which falls into six sectors.
-/

namespace Darkroom

/-- Hue, saturation and lightness, each as a fraction. -/
structure Hsl (α : Type) where
  /-- Hue. -/
  hue : α
  /-- Saturation. -/
  saturation : α
  /-- Lightness. -/
  lightness : α

namespace Hsl

variable {α : Type} [Scalar α]

/-- The hue, saturation and lightness of a color. -/
def ofColor (c : Color) : Hsl α :=
  let part (v : UInt8) : α := Scalar.whole v.toNat / Scalar.whole 255
  let two : α := Scalar.whole 2
  let r := part c.red
  let g := part c.green
  let b := part c.blue
  let high := Scalar.greatest (Scalar.greatest r g) b
  let low := Scalar.least (Scalar.least r g) b
  let lightness := (high + low) / two
  let spread := high - low
  if Scalar.less (Scalar.magnitude spread) Scalar.tiny then
    ⟨Scalar.whole 0, Scalar.whole 0, lightness⟩
  else
    let saturation :=
      if Scalar.less (Scalar.whole 1 / two) lightness then spread / (two - high - low)
      else spread / (high + low)
    let sector :=
      if Scalar.same high r then Scalar.residue ((g - b) / spread) 6
      else if Scalar.same high g then (b - r) / spread + two
      else (r - g) / spread + Scalar.whole 4
    ⟨sector / Scalar.whole 6, saturation, lightness⟩

/-- The color of a hue, saturation and lightness, with an alpha. -/
def toColor (hsl : Hsl α) (alpha : UInt8) : Color :=
  let zero : α := Scalar.whole 0
  let one : α := Scalar.whole 1
  let two : α := Scalar.whole 2
  let chroma :=
    (one - Scalar.magnitude (two * hsl.lightness - one)) * hsl.saturation
  let position := Scalar.residue hsl.hue 1 * Scalar.whole 6
  let second := chroma * (one - Scalar.magnitude (Scalar.residue position 2 - one))
  let (r, g, b) := match Scalar.truncNat position with
    | 0 => (chroma, second, zero)
    | 1 => (second, chroma, zero)
    | 2 => (zero, chroma, second)
    | 3 => (zero, second, chroma)
    | 4 => (second, zero, chroma)
    | _ => (chroma, zero, second)
  let base := hsl.lightness - chroma / two
  let byte (v : α) : UInt8 := Scalar.toByte ((v + base) * Scalar.whole 255)
  ⟨byte r, byte g, byte b, alpha⟩

/-- A color with its brightness, saturation and hue changed; one hundred of each is neutral. -/
def modulate (brightness saturation hue : α) (c : Color) : Color :=
  let hundred : α := Scalar.whole 100
  let hsl : Hsl α := ofColor c
  let fraction (x : α) : α := Scalar.clamp x (Scalar.whole 0) (Scalar.whole 1)
  let changed : Hsl α :=
    ⟨hsl.hue + (hue - hundred) / Scalar.whole 200, fraction (hsl.saturation * saturation / hundred),
      fraction (hsl.lightness * brightness / hundred)⟩
  changed.toColor c.alpha

end Hsl
end Darkroom
