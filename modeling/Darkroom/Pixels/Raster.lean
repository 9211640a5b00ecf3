import Darkroom.Color.Basic
import Darkroom.Geometry.Rect

/-!
# Rasters

A raster is a rectangle of colors in row order.  Operators on pixels are written against `get` and
`ofFn`, so that the color at a place is an equation.
-/

namespace Darkroom

namespace Size

/-- The number of pixels. -/
def area (s : Size) : Nat :=
  s.width.toNat * s.height.toNat

/-- The size with its sides exchanged. -/
def swapped (s : Size) : Size :=
  ⟨s.height, s.width⟩

/-- The size with both sides at least one. -/
def atLeastOne (s : Size) : Size :=
  ⟨max 1 s.width, max 1 s.height⟩

end Size

/-- A rectangle of colors. -/
structure Raster where
  /-- The size. -/
  size : Size
  /-- The colors in row order. -/
  pixels : Array Color
  /-- Each place has its color. -/
  filled : pixels.size = size.area

namespace Raster

/-- The width. -/
def width (r : Raster) : Nat :=
  r.size.width.toNat

/-- The height. -/
def height (r : Raster) : Nat :=
  r.size.height.toNat

/-- The color at a place; no coverage outside. -/
def get (r : Raster) (x y : Nat) : Color :=
  if x < r.width then r.pixels.getD (y * r.width + x) Color.transparent else Color.transparent

/-- The color at a place that may lie outside. -/
def get? (r : Raster) (x y : Int) : Option Color :=
  if 0 ≤ x ∧ x < r.width ∧ 0 ≤ y ∧ y < r.height then some (r.get x.toNat y.toNat) else none

/-- The raster of a function of the place. -/
def ofFn (size : Size) (f : Nat → Nat → Color) : Raster where
  size := size
  pixels := Array.ofFn fun i : Fin size.area => f (i % size.width.toNat) (i / size.width.toNat)
  filled := by simp

/-- One color everywhere. -/
def fill (size : Size) (c : Color) : Raster where
  size := size
  pixels := Array.replicate size.area c
  filled := by simp

/-- Every color changed. -/
def map (f : Color → Color) (r : Raster) : Raster where
  size := r.size
  pixels := r.pixels.map f
  filled := by simp [r.filled]

/-- Every color changed, with its place. -/
def mapPlaces (f : Nat → Nat → Color → Color) (r : Raster) : Raster :=
  ofFn r.size fun x y => f x y (r.get x y)

/-- One color changed; a place outside changes nothing. -/
def put (r : Raster) (x y : Nat) (c : Color) : Raster where
  size := r.size
  pixels := if x < r.width then r.pixels.setIfInBounds (y * r.width + x) c else r.pixels
  filled := by split <;> simp [r.filled]

/-- The colors in row order. -/
def toList (r : Raster) : List Color :=
  r.pixels.toList

/-- The raster of a list of colors in row order; missing ones have no coverage. -/
def ofList (size : Size) (colors : List Color) : Raster :=
  let given := colors.toArray
  ofFn size fun x y => given.getD (y * size.width.toNat + x) Color.transparent

@[simp] theorem size_map (f : Color → Color) (r : Raster) : (r.map f).size = r.size :=
  rfl

@[simp] theorem size_ofFn (size : Size) (f : Nat → Nat → Color) : (ofFn size f).size = size :=
  rfl

/-- Two rasters of one size with the same colors are the same. -/
theorem ext_pixels {r s : Raster} (sizes : r.size = s.size) (colors : r.pixels = s.pixels) :
    r = s := by
  cases r; cases s
  simp only at sizes colors
  subst sizes colors
  rfl

/-- The color that `ofFn` puts at a place inside. -/
theorem get_ofFn {size : Size} {f : Nat → Nat → Color} {x y : Nat} (across : x < size.width.toNat)
    (down : y < size.height.toNat) : (ofFn size f).get x y = f x y := by
  have inside : y * size.width.toNat + x < size.area := by
    unfold Size.area
    calc y * size.width.toNat + x < y * size.width.toNat + size.width.toNat := by omega
      _ = (y + 1) * size.width.toNat := by rw [Nat.add_mul, Nat.one_mul]
      _ ≤ size.height.toNat * size.width.toNat := Nat.mul_le_mul_right _ (by omega)
      _ = size.width.toNat * size.height.toNat := Nat.mul_comm ..
  have positive : 0 < size.width.toNat := by omega
  have column : (y * size.width.toNat + x) % size.width.toNat = x := by
    rw [Nat.add_comm, Nat.add_mul_mod_self_right, Nat.mod_eq_of_lt across]
  have row : (y * size.width.toNat + x) / size.width.toNat = y := by
    rw [Nat.add_comm, Nat.add_mul_div_right _ _ positive, Nat.div_eq_of_lt across, Nat.zero_add]
  simp [get, width, across, ofFn, Array.getD, inside, column, row]

end Raster
end Darkroom
