import Darkroom.Image
import Darkroom.Pixels.Paint

/-!
# Palettes

The colors of images, and images mapped onto given colors.  Of several colors that are nearest the
first of the palette is taken.
-/

namespace Darkroom
namespace Palette

/-- The colors of a raster in the order of their first appearance. -/
def ofRaster (r : Raster) : List Color :=
  r.toList.eraseDups

/-- The place of a color in the order by red, green, blue and alpha. -/
def rank (c : Color) : Nat :=
  ((c.red.toNat * 256 + c.green.toNat) * 256 + c.blue.toNat) * 256 + c.alpha.toNat

/-- Equal neighbors of a list counted together. -/
def tally : List Color → List (Color × Nat)
  | [] => []
  | c :: rest =>
      match tally rest with
      | (d, n) :: more => if c = d then (d, n + 1) :: more else (c, 1) :: (d, n) :: more
      | [] => [(c, 1)]

/-- How often each color occurs in rasters, in the order of the colors. -/
def histogram (rasters : List Raster) : List (Color × Nat) :=
  tally ((rasters.flatMap Raster.toList).mergeSort fun c d => rank c ≤ rank d)

/-- Whether a counted color comes before another: it is more frequent, or as frequent and not
greater. -/
def precedes (a b : Color × Nat) : Bool :=
  b.2 < a.2 || (a.2 == b.2 && rank a.1 ≤ rank b.1)

/-- The first colors of a table of counted colors, up to a number of at least one. -/
def foremost (table : List (Color × Nat)) (limit : Nat) : List Color :=
  ((table.mergeSort precedes).take (max limit 1)).map (·.1)

/-- The most frequent colors of rasters, up to a number of at least one; among equally frequent
ones the lesser comes first. -/
def shared (rasters : List Raster) (limit : Nat) : List Color :=
  foremost (histogram rasters) limit

/-- Whether the first color is nearer than the second. -/
def isNearer (c first second : Color) : Bool :=
  c.distance first < c.distance second

/-- The nearest color of a palette; without a palette the color itself. -/
def nearest (palette : List Color) (c : Color) : Color :=
  (Raster.leastBy? (isNearer c) palette).getD c

/-- The image with every color replaced by the nearest of a palette. -/
def remap (palette : List Color) (image : Image) : Image :=
  if palette.isEmpty then image else image.mapColors (nearest palette)

end Palette
end Darkroom
