import Darkroom.Pixels.Raster

/-!
# Bitmaps

An image keeps its pixels with or without color and with or without alpha.  A bitmap is a raster
whose colors all fit such a layout; a layout is imposed by cutting each color down to it.
-/

namespace Darkroom

/-- Which channels a bitmap keeps. -/
inductive Layout where
  /-- Color and alpha. -/
  | rgba8
  /-- Color without alpha. -/
  | rgb8
  /-- Gray without alpha. -/
  | l8
  /-- Gray and alpha. -/
  | la8
deriving DecidableEq, Repr, Inhabited

namespace Layout

/-- The name of the layout. -/
def name : Layout → String
  | rgba8 => "rgba8"
  | rgb8 => "rgb8"
  | l8 => "l8"
  | la8 => "la8"

/-- The part of a color that a layout keeps; the red channel stands for gray. -/
def restrict : Layout → Color → Color
  | rgba8, c => c
  | rgb8, c => { c with alpha := 255 }
  | l8, c => Color.gray c.red
  | la8, c => ⟨c.red, c.red, c.red, c.alpha⟩

/-- Whether the layout keeps color. -/
def hasColor : Layout → Bool
  | rgba8 | rgb8 => true
  | l8 | la8 => false

/-- Whether the layout keeps alpha. -/
def hasAlpha : Layout → Bool
  | rgba8 | la8 => true
  | rgb8 | l8 => false

@[simp] theorem restrict_restrict (l : Layout) (c : Color) :
    l.restrict (l.restrict c) = l.restrict c := by
  cases l <;> rfl

@[simp] theorem restrict_rgba8 (c : Color) : rgba8.restrict c = c :=
  rfl

end Layout

/-- A raster in a layout. -/
structure Bitmap where
  /-- The layout. -/
  layout : Layout
  /-- The colors. -/
  raster : Raster
  /-- Every color fits the layout. -/
  conforms : ∀ c ∈ raster.pixels, layout.restrict c = c

namespace Bitmap

/-- A raster cut down to a layout. -/
def of (layout : Layout) (raster : Raster) : Bitmap where
  layout := layout
  raster := raster.map layout.restrict
  conforms c member := by
    obtain ⟨d, -, rfl⟩ := Array.mem_map.1 member
    simp

/-- A raster with color and alpha. -/
def rgba (raster : Raster) : Bitmap where
  layout := .rgba8
  raster := raster
  conforms _ _ := rfl

/-- The size. -/
def size (b : Bitmap) : Size :=
  b.raster.size

/-- The colors changed, cut down to the layout again. -/
def map (f : Color → Color) (b : Bitmap) : Bitmap :=
  of b.layout (b.raster.map f)

/-- The raster changed, in the same layout. -/
def mapRaster (f : Raster → Raster) (b : Bitmap) : Bitmap :=
  of b.layout (f b.raster)

/-- The weight of a color as gray, to the nearest byte. -/
def weighGray (c : Color) : UInt8 :=
  UInt8.ofNat ((2126478 * c.red.toNat + 7151791 * c.green.toNat + 721730 * c.blue.toNat +
    5000000) / 10000000)

/-- The gray a color turns into. -/
def toGray (layout : Layout) (c : Color) : UInt8 :=
  if layout.hasColor then weighGray c else c.red

/-- Only the gray. -/
def toL8 (b : Bitmap) : Bitmap :=
  of .l8 (b.raster.map fun c => Color.gray (toGray b.layout c))

/-- The gray and the alpha. -/
def toLa8 (b : Bitmap) : Bitmap :=
  of .la8 (b.raster.map fun c =>
    let g := toGray b.layout c
    ⟨g, g, g, c.alpha⟩)

/-- The color without the alpha. -/
def toRgb8 (b : Bitmap) : Bitmap :=
  of .rgb8 b.raster

/-- The color and the alpha. -/
def toRgba8 (b : Bitmap) : Bitmap :=
  rgba b.raster

@[simp] theorem raster_rgba (r : Raster) : (rgba r).raster = r :=
  rfl

@[simp] theorem size_of (l : Layout) (r : Raster) : (of l r).size = r.size :=
  rfl

/-- A conforming raster is not cut down any further. -/
theorem map_restrict (b : Bitmap) : b.raster.map b.layout.restrict = b.raster := by
  refine Raster.ext_pixels rfl ?_
  have same : ∀ c ∈ b.raster.pixels, b.layout.restrict c = id c := b.conforms
  simp only [Raster.map]
  exact (Array.map_congr_left same).trans (Array.map_id _)

end Bitmap
end Darkroom
