import Darkroom.Engine.Pixel
import Darkroom.Proofs.Geometry.Tiles
import Darkroom.Proofs.Pixels.Drawings
import Darkroom.Proofs.Placement

/-!
# Tiles flattened

A tile that is cut from an image keeps its colors and remembers its place on the page.  Tiles of an
opaque image that are drawn at their places give the image back, whatever was under them, as soon as
each pixel is in one of them.
-/

namespace Darkroom

/-! ## Cutting -/

namespace Raster

variable {r : Raster} {tile : Rect}

theorem toNat_narrow_of_isPart
    (isPart : tile.IsPart r.size) :
    ((narrow tile.x).toNat : Int) = tile.x.toInt ∧
      ((narrow tile.y).toNat : Int) = tile.y.toInt := by
  have width := r.size.width.toNat_lt
  have height := r.size.height.toNat_lt
  obtain ⟨wide, tall, left, top, right, bottom⟩ := isPart
  exact ⟨toNat_narrow left (by omega), toNat_narrow top (by omega)⟩

theorem crop_side
    (start length side : UInt32)
    (fits : start.toNat + length.toNat ≤ side.toNat) :
    min start side = start ∧ min length (side - start) = length := by
  have inside : start ≤ side := UInt32.le_iff_toNat_le.mpr (by omega)
  refine ⟨if_pos inside, if_pos ?_⟩
  rw [UInt32.le_iff_toNat_le, UInt32.toNat_sub_of_le _ _ inside]
  omega

theorem crop_of_isPart
    (isPart : tile.IsPart r.size) :
    r.crop (narrow tile.x) (narrow tile.y) tile.width tile.height =
      ofFn ⟨tile.width, tile.height⟩ fun column row =>
        r.get ((narrow tile.x).toNat + column) ((narrow tile.y).toNat + row) := by
  obtain ⟨left, top⟩ := toNat_narrow_of_isPart isPart
  have right := isPart.right
  have bottom := isPart.bottom
  obtain ⟨across, width⟩ := crop_side (narrow tile.x) tile.width r.size.width (by omega)
  obtain ⟨down, height⟩ := crop_side (narrow tile.y) tile.height r.size.height (by omega)
  unfold crop
  dsimp only
  rw [across, down, width, height]

end Raster

namespace Image

variable {image : Image} {tile : Rect}

theorem raster_cut
    (image : Image)
    (tile : Rect) :
    (image.cut tile).raster =
      (image.raster.crop (narrow tile.x) (narrow tile.y) tile.width tile.height).map
        image.bitmap.layout.restrict :=
  rfl

theorem size_cut
    (isPart : tile.IsPart image.size) :
    (image.cut tile).raster.size = ⟨tile.width, tile.height⟩ := by
  rw [raster_cut, Raster.size_map, Raster.crop_of_isPart (r := image.raster) isPart,
    Raster.size_ofFn]

/-- A tile has the color of the image at each of its pixels. -/
theorem get?_cut
    (isPart : tile.IsPart image.size)
    (x y : Nat) :
    (image.cut tile).raster.get? ((x : Int) - tile.x.toInt) ((y : Int) - tile.y.toInt) =
      if tile.Contains x y then some (image.raster.get x y) else none := by
  obtain ⟨left, top⟩ := Raster.toNat_narrow_of_isPart isPart
  have size := size_cut isPart
  have across : (image.cut tile).raster.width = tile.width.toNat := by rw [Raster.width, size]
  have down : (image.cut tile).raster.height = tile.height.toNat := by rw [Raster.height, size]
  unfold Raster.get?
  rw [across, down]
  have range : tile.Contains x y ↔ (tile.x.toInt ≤ x ∧ x < tile.x.toInt + tile.width.toNat) ∧
      tile.y.toInt ≤ y ∧ y < tile.y.toInt + tile.height.toNat := Iff.rfl
  by_cases inside : tile.Contains x y
  · have place := range.mp inside
    have column : ((x : Int) - tile.x.toInt).toNat < tile.width.toNat := by omega
    have row : ((y : Int) - tile.y.toInt).toNat < tile.height.toNat := by omega
    have x_eq : (narrow tile.x).toNat + ((x : Int) - tile.x.toInt).toNat = x := by omega
    have y_eq : (narrow tile.y).toNat + ((y : Int) - tile.y.toInt).toNat = y := by omega
    have right := isPart.right
    have bottom := isPart.bottom
    have inImage : image.raster.size.Contains x y := ⟨by
      change x < image.size.width.toNat
      omega, by
      change y < image.size.height.toNat
      omega⟩
    rw [if_pos inside, if_pos (by omega), raster_cut,
      Raster.crop_of_isPart (r := image.raster) isPart, Raster.get_map _ ⟨column, row⟩,
      Raster.get_ofFn column row, x_eq, y_eq]
    exact congrArg some (image.bitmap.conforms _ (Raster.get_mem inImage))
  · rw [if_neg inside, if_neg fun within => inside (range.mpr (by omega))]

end Image

/-! ## Drawing tiles at their places -/

namespace Layers

variable {image : Image}

/-- A tile drawn at its place on a canvas. -/
def drawTile (image : Image) (canvas : Raster) (tile : Rect) : Raster :=
  (image.cut tile).raster.drawOnto canvas tile.x tile.y .over

/-- The pixels of the tile have the colors of the image; the others keep theirs. -/
theorem get_drawTile
    (solid : ∀ c ∈ image.raster.pixels, c.alpha = 255)
    {canvas : Raster}
    (size : canvas.size = image.size)
    {tile : Rect}
    (isPart : tile.IsPart image.size)
    {x y : Nat}
    (inside : image.size.Contains x y) :
    (drawTile image canvas tile).get x y =
      if tile.Contains x y then image.raster.get x y else canvas.get x y := by
  have onCanvas : canvas.size.Contains x y := size ▸ inside
  rw [drawTile, Raster.get_drawOnto _ _ _ _ onCanvas, Image.get?_cut isPart]
  by_cases inTile : tile.Contains x y
  · rw [if_pos inTile, if_pos inTile]
    exact Blend.pixel_over_of_opaque (solid _ (Raster.get_mem inside)) _
  · rw [if_neg inTile, if_neg inTile]

/-- Tiles drawn in turn give the colors of the image to every pixel in one of them. -/
theorem foldl_drawTile
    (solid : ∀ c ∈ image.raster.pixels, c.alpha = 255)
    {tiles : List Rect}
    (isPart : ∀ tile ∈ tiles, tile.IsPart image.size)
    {canvas : Raster}
    (size : canvas.size = image.size) :
    (tiles.foldl (drawTile image) canvas).size = image.size ∧
      ∀ x y, image.size.Contains x y →
        canvas.get x y = image.raster.get x y ∨ (∃ tile ∈ tiles, tile.Contains x y) →
        (tiles.foldl (drawTile image) canvas).get x y = image.raster.get x y := by
  induction tiles generalizing canvas with
  | nil => exact ⟨size, fun x y _ drawn => drawn.resolve_right (by simp)⟩
  | cons tile tiles inductionHypothesis =>
      obtain ⟨first, rest⟩ := List.forall_mem_cons.mp isPart
      have size' : (drawTile image canvas tile).size = image.size := size
      obtain ⟨kept, colors⟩ := inductionHypothesis rest size'
      refine ⟨kept, fun x y inside drawn => colors x y inside ?_⟩
      -- A pixel has its color by now, or it is in a tile that is still to come.
      rw [get_drawTile solid size first inside]
      by_cases inTile : tile.Contains x y
      · exact .inl (if_pos inTile)
      · rw [if_neg inTile]
        refine drawn.imp_right fun ⟨found, mem, contains⟩ => ?_
        rcases List.mem_cons.mp mem with rfl | mem
        · exact absurd contains inTile
        · exact ⟨found, mem, contains⟩

/-- Tiles that share out an opaque image, drawn on any canvas of its size, give the image back. -/
theorem foldl_drawTile_partition
    (solid : ∀ c ∈ image.raster.pixels, c.alpha = 255)
    {tiles : List Rect}
    (partition : Tiles.Partition tiles image.size)
    {canvas : Raster}
    (size : canvas.size = image.size) :
    tiles.foldl (drawTile image) canvas = image.raster := by
  obtain ⟨kept, colors⟩ := foldl_drawTile solid partition.isPart size
  refine Raster.ext_get kept fun x y inside => ?_
  have inImage : image.size.Contains x y := kept ▸ inside
  have one := partition.covers x y inImage
  obtain ⟨tile, mem, contains⟩ := List.countP_pos_iff.mp (by rw [one]; exact Nat.one_pos)
  exact colors x y inImage (.inr ⟨tile, mem, of_decide_eq_true contains⟩)

/-! ## Flattening the tiles of a crop -/

theorem atLeastOne_eq
    {size : Size}
    (nonempty : 0 < size.width ∧ 0 < size.height) :
    size.atLeastOne = size := by
  have width : max 1 size.width = size.width := if_pos nonempty.1
  have height : max 1 size.height = size.height := if_pos nonempty.2
  rw [Size.atLeastOne, width, height]

theorem canvasSize_cut
    (unset : image.page = Page.unset)
    (nonempty : 0 < image.size.width ∧ 0 < image.size.height)
    (tile : Rect) :
    canvasSize (image.cut tile) = image.size := by
  have width : max 0 image.size.width = image.size.width :=
    if_pos (UInt32.le_of_lt nonempty.1)
  have height : max 0 image.size.height = image.size.height :=
    if_pos (UInt32.le_of_lt nonempty.2)
  have page : (image.cut tile).page.width = image.size.width ∧
      (image.cut tile).page.height = image.size.height := by
    change max image.page.width image.size.width = _ ∧ max image.page.height image.size.height = _
    rw [unset]
    exact ⟨width, height⟩
  rw [canvasSize, page.1, page.2, if_pos nonempty]

/-- Parts of an image, flattened, are drawn in turn on a canvas of its size and background. -/
theorem raster_flatten_cuts
    (unset : image.page = Page.unset)
    (composed : image.compose = .over)
    (nonempty : 0 < image.size.width ∧ 0 < image.size.height)
    (first : Rect)
    (rest : List Rect) :
    (flatten .flatten (image.cut first) (rest.map image.cut)).raster =
      (first :: rest).foldl (drawTile image) (Raster.fill image.size image.background) := by
  have canvas : canvasOf .flatten (image.cut first) (rest.map image.cut) =
      ⟨0, 0, image.size.width, image.size.height⟩ := by
    rw [canvasOf, canvasSize_cut unset nonempty]
  have drawn : ∀ (canvas : Raster) (tile : Rect),
      (image.cut tile).raster.drawOnto canvas ((image.cut tile).page.x - 0)
        ((image.cut tile).page.y - 0) (image.cut tile).compose = drawTile image canvas tile := by
    intro canvas tile
    change (image.cut tile).raster.drawOnto canvas (image.page.x + tile.x - 0)
      (image.page.y + tile.y - 0) image.compose = _
    rw [unset, composed, Int64.sub_zero, Int64.sub_zero]
    change (image.cut tile).raster.drawOnto canvas (0 + tile.x) (0 + tile.y) .over = _
    rw [Int64.zero_add, Int64.zero_add, drawTile]
  rw [flatten, canvas, ← List.map_cons, List.foldl_map]
  simp only [drawn, atLeastOne_eq nonempty]
  rfl

/-- The tiles that share out an opaque image, flattened, have the pixels of the image. -/
theorem raster_flatten_cut
    (solid : ∀ c ∈ image.raster.pixels, c.alpha = 255)
    (unset : image.page = Page.unset)
    (composed : image.compose = .over)
    (nonempty : 0 < image.size.width ∧ 0 < image.size.height)
    {first : Rect}
    {rest : List Rect}
    (partition : Tiles.Partition (first :: rest) image.size) :
    (flatten .flatten (image.cut first) (rest.map image.cut)).raster = image.raster := by
  rw [raster_flatten_cuts unset composed nonempty]
  exact foldl_drawTile_partition solid partition rfl

end Layers

/-- Cut into the tiles of a region and flattened, an image comes back as one image with the same
pixels. -/
def Image.ComesBack (image : Image) (region : Region) : Prop :=
  ∃ outcome whole,
    PixelEngine.transform image (.crop (cropRegions image.size region)) = .ok outcome ∧
    PixelEngine.assemble (outcome.made image) (.layers .flatten) = .ok [whole] ∧
    whole.size = image.size ∧ whole.raster = image.raster

/-- An opaque image that has pixels and no page comes back from its tiles, whatever its background
is. -/
theorem comesBack_of_opaque
    {image : Image}
    (solid : ∀ c ∈ image.raster.pixels, c.alpha = 255)
    (unset : image.page = Page.unset)
    (composed : image.compose = .over)
    (nonempty : 0 < image.size.width ∧ 0 < image.size.height)
    {region : Region}
    (noOffset : region.hasOffset = false) :
    image.ComesBack region := by
  have partition := partition_cropRegions (.inl noOffset) image.size
  generalize tiles_eq : cropRegions image.size region = tiles at partition
  unfold Image.ComesBack
  rw [tiles_eq]
  match tiles with
  | [] =>
      have corner := partition.covers 0 0 ⟨UInt32.lt_iff_toNat_lt.mp nonempty.1,
        UInt32.lt_iff_toNat_lt.mp nonempty.2⟩
      cases corner
  | [tile] =>
      have restored := Layers.raster_flatten_cut solid unset composed nonempty partition
      exact ⟨.replaced (image.cut tile), _, rfl, rfl, congrArg Raster.size restored, restored⟩
  | first :: second :: rest =>
      have restored := Layers.raster_flatten_cut solid unset composed nonempty partition
      exact ⟨.parts ((first :: second :: rest).map image.cut), _, rfl, rfl,
        congrArg Raster.size restored, restored⟩

/-- An image of two rows with three opaque colors each comes back from tiles that are two wide. -/
theorem comesBack_three_by_two :
    Image.ComesBack
      { bitmap := Bitmap.rgba (Raster.ofFn ⟨3, 2⟩ fun x y =>
          ⟨UInt8.ofNat (80 * x), UInt8.ofNat (200 * y), 7, 255⟩)
        background := Color.transparent
        compose := .over }
      { width := some 2.0, height := some 1.0 } := by
  refine comesBack_of_opaque (fun c mem => ?_) rfl rfl (by decide) rfl
  obtain ⟨place, rfl⟩ := Array.mem_ofFn.mp mem
  rfl

/-- A crop that cuts no tiles is refused. -/
theorem not_comesBack_of_no_tiles
    {image : Image}
    {region : Region}
    (none : cropRegions image.size region = []) :
    ¬ image.ComesBack region := by
  rintro ⟨outcome, whole, cropped, -⟩
  rw [none] at cropped
  cases cropped

/-- An opaque image without pixels has no tiles, and the crop is refused. -/
theorem not_comesBack_without_columns :
    ∃ image : Image, ∃ region : Region,
      image.size = ⟨0, 1⟩ ∧ (∀ c ∈ image.raster.pixels, c.alpha = 255) ∧
      image.page = Page.unset ∧ image.compose = .over ∧ region.hasOffset = false ∧
      ¬ image.ComesBack region := by
  refine ⟨{ bitmap := Bitmap.rgba (Raster.fill ⟨0, 1⟩ Color.white), compose := .over },
    { width := some 1.0, height := some 1.0 }, rfl, fun c mem => ?_, rfl, rfl, rfl, ?_⟩
  · have empty : c ∈ Array.replicate 0 Color.white := mem
    rw [Array.mem_replicate] at empty
    exact absurd rfl empty.1
  · exact not_comesBack_of_no_tiles (by decide)

end Darkroom
