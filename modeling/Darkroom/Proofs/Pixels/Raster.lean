import Darkroom.Pixels.Bitmap
import Darkroom.Proofs.Geometry.Rect

/-!
# The colors of rasters

The colors of a raster are the ones at the places of its size: two rasters of one size with the same
color at each place are the same, and operators on rasters are given by the color at a place.
-/

namespace Darkroom
namespace Raster

variable {r s : Raster} {x y : Nat}

theorem size_eq_of_sides
    (width : r.width = s.width)
    (height : r.height = s.height) :
    r.size = s.size := by
  have columns : r.size.width = s.size.width := UInt32.toNat_inj.mp width
  have rows : r.size.height = s.size.height := UInt32.toNat_inj.mp height
  calc r.size = ⟨r.size.width, r.size.height⟩ := rfl
    _ = ⟨s.size.width, s.size.height⟩ := by rw [columns, rows]
    _ = s.size := rfl

theorem index_lt
    (inside : r.size.Contains x y) :
    y * r.size.width.toNat + x < r.pixels.size := by
  obtain ⟨across, down⟩ := inside
  rw [r.filled]
  calc y * r.size.width.toNat + x < y * r.size.width.toNat + r.size.width.toNat := by omega
    _ = (y + 1) * r.size.width.toNat := by rw [Nat.add_mul, Nat.one_mul]
    _ ≤ r.size.height.toNat * r.size.width.toNat := Nat.mul_le_mul_right _ (by omega)
    _ = r.size.width.toNat * r.size.height.toNat := Nat.mul_comm ..

/-- Places have different numbers in row order. -/
theorem index_inj
    {width x' y' : Nat}
    (across : x < width)
    (across' : x' < width)
    (same : y * width + x = y' * width + x') :
    x = x' ∧ y = y' := by
  have positive : 0 < width := Nat.lt_of_le_of_lt (Nat.zero_le x) across
  have rows : y = y' := by
    calc y = (y * width + x) / width := by
          rw [Nat.add_comm, Nat.add_mul_div_right _ _ positive, Nat.div_eq_of_lt across,
            Nat.zero_add]
      _ = (y' * width + x') / width := by rw [same]
      _ = y' := by
          rw [Nat.add_comm, Nat.add_mul_div_right _ _ positive, Nat.div_eq_of_lt across',
            Nat.zero_add]
  rw [rows] at same
  exact ⟨Nat.add_left_cancel same, rows⟩

theorem getElem?_index
    (inside : r.size.Contains x y) :
    r.pixels[y * r.size.width.toNat + x]? = some (r.get x y) := by
  have across : x < r.width := inside.1
  have place : y * r.width + x < r.pixels.size := index_lt inside
  rw [get, if_pos across, Array.getD, dif_pos place]
  exact Array.getElem?_eq_getElem place

theorem get_mem
    (inside : r.size.Contains x y) :
    r.get x y ∈ r.pixels :=
  Array.mem_of_getElem? (getElem?_index inside)

/-- Two rasters of one size with the same color at each place are the same. -/
theorem ext_get
    (sizes : r.size = s.size)
    (colors : ∀ x y, r.size.Contains x y → r.get x y = s.get x y) :
    r = s := by
  have lengths : r.pixels.size = s.pixels.size := by rw [r.filled, s.filled, sizes]
  refine ext_pixels sizes (Array.ext_getElem? fun i => ?_)
  by_cases bound : i < r.pixels.size
  · have area : i < r.size.width.toNat * r.size.height.toNat := by rwa [r.filled] at bound
    have positive : 0 < r.size.width.toNat :=
      Nat.pos_of_mul_pos_right (Nat.lt_of_le_of_lt (Nat.zero_le i) area)
    have inside : r.size.Contains (i % r.size.width.toNat) (i / r.size.width.toNat) :=
      ⟨Nat.mod_lt _ positive, Nat.div_lt_of_lt_mul area⟩
    have first := getElem?_index inside
    have second := getElem?_index (sizes ▸ inside)
    rw [← sizes, ← colors _ _ inside] at second
    rw [Nat.div_add_mod'] at first second
    rw [first, second]
  · rw [Array.getElem?_eq_none (Nat.not_lt.mp bound),
      Array.getElem?_eq_none (lengths ▸ Nat.not_lt.mp bound)]

/-- A place is read when the raster has it. -/
theorem get?_eq
    (r : Raster)
    (x y : Nat) :
    r.get? x y = if r.size.Contains x y then some (r.get x y) else none := by
  have range : (0 ≤ (x : Int) ∧ (x : Int) < r.width ∧ 0 ≤ (y : Int) ∧ (y : Int) < r.height) ↔
      r.size.Contains x y := by
    unfold Size.Contains width height
    omega
  simp only [get?, range, Int.toNat_natCast]

theorem get?_of_outside
    {x y : Int}
    (outside : (x < 0 ∨ r.width ≤ x) ∨ y < 0 ∨ r.height ≤ y) :
    r.get? x y = none :=
  if_neg (by omega)

theorem get_fill
    {size : Size}
    (c : Color)
    (inside : size.Contains x y) :
    (fill size c).get x y = c := by
  have onCanvas : (fill size c).size.Contains x y := inside
  have bound : y * size.width.toNat + x < size.area :=
    Nat.lt_of_lt_of_eq (index_lt onCanvas) (fill size c).filled
  have found := getElem?_index onCanvas
  rw [fill, Array.getElem?_replicate, if_pos bound] at found
  exact (Option.some.inj found).symm

theorem get_map
    (f : Color → Color)
    (inside : r.size.Contains x y) :
    (r.map f).get x y = f (r.get x y) := by
  have mapped : (r.map f).pixels[y * r.size.width.toNat + x]? = some (f (r.get x y)) := by
    rw [map, Array.getElem?_map, getElem?_index inside]
    rfl
  have inside' : (r.map f).size.Contains x y := inside
  exact Option.some.inj ((getElem?_index inside').symm.trans mapped)

theorem map_map
    (f g : Color → Color)
    (r : Raster) :
    (r.map f).map g = r.map (g ∘ f) :=
  ext_pixels rfl Array.map_map

/-- A change that keeps the colors of a raster keeps the raster. -/
theorem map_eq_self
    {f : Color → Color}
    (same : ∀ c ∈ r.pixels, f c = c) :
    r.map f = r :=
  ext_pixels rfl ((Array.map_congr_left same).trans (Array.map_id' r.pixels))

theorem get_mapPlaces
    (f : Nat → Nat → Color → Color)
    (inside : r.size.Contains x y) :
    (r.mapPlaces f).get x y = f x y (r.get x y) :=
  get_ofFn inside.1 inside.2

theorem pixels_put
    (c : Color)
    (across : x < r.width) :
    (r.put x y c).pixels = r.pixels.setIfInBounds (y * r.width + x) c :=
  if_pos across

theorem get_put_self
    (c : Color)
    (inside : r.size.Contains x y) :
    (r.put x y c).get x y = c := by
  have across : x < r.width := inside.1
  have changed : (r.put x y c).pixels[y * r.size.width.toNat + x]? = some c := by
    rw [pixels_put c across]
    exact Array.getElem?_setIfInBounds_self_of_lt (index_lt inside)
  have inside' : (r.put x y c).size.Contains x y := inside
  exact Option.some.inj ((getElem?_index inside').symm.trans changed)

theorem get_put_of_ne
    {x' y' : Nat}
    (c : Color)
    (across : x < r.width)
    (inside : r.size.Contains x' y')
    (other : ¬ (x' = x ∧ y' = y)) :
    (r.put x y c).get x' y' = r.get x' y' := by
  have kept : (r.put x y c).pixels[y' * r.size.width.toNat + x']? = some (r.get x' y') := by
    rw [pixels_put c across, ← getElem?_index inside]
    exact Array.getElem?_setIfInBounds_ne fun same =>
      other (index_inj inside.1 across same.symm)
  have inside' : (r.put x y c).size.Contains x' y' := inside
  exact Option.some.inj ((getElem?_index inside').symm.trans kept)

end Raster
end Darkroom
