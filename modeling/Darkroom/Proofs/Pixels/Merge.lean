import Darkroom.Engine.Pixel
import Darkroom.Proofs.Geometry.Bounds
import Darkroom.Proofs.Pixels.Drawings

/-!
# Merged layers and frames

Images lie on a plane, each at the offset of its page.  Merged, they are drawn in order onto a
canvas that is cut out of the plane: the box around all of them, at least one pixel wide and high.
Nothing of an image falls beside that canvas, and each of its pixels shows what lies there on the
plane.

Coalesced, an animation is drawn out: each image becomes a frame of one size that shows the image
over all images before it, on a canvas without coverage.  A frame does not depend on what follows,
so that the frames of the first images are the first frames.
-/

namespace Darkroom

namespace Image

/-- An image as a drawing on the plane, at the offset of its page. -/
def onPlane (image : Image) : Drawing :=
  ⟨image.raster, image.page.x, image.page.y, image.compose⟩

/-- The page of an image as a rectangle of the plane. -/
def pageRect (image : Image) : Rect :=
  ⟨image.page.x, image.page.y, image.page.width, image.page.height⟩

/-- An image as a drawing on a canvas that is cut out of the plane. -/
def onCanvas (box : Rect) (image : Image) : Drawing :=
  ⟨image.raster, image.page.x - box.x, image.page.y - box.y, image.compose⟩

/-- Each place that an image covers on the plane is one of its pixels. -/
theorem exists_pixel
    {image : Image}
    {x y : Int}
    (covers : image.onPlane.rect.Covers x y) :
    ∃ column row : Nat, image.size.Contains column row ∧
      x = image.page.x.toInt + column ∧ y = image.page.y.toInt + row := by
  obtain ⟨⟨left, right⟩, top, bottom⟩ :
    (image.page.x.toInt ≤ x ∧ x < image.page.x.toInt + image.size.width.toNat) ∧
      image.page.y.toInt ≤ y ∧ y < image.page.y.toInt + image.size.height.toNat := covers
  refine ⟨(x - image.page.x.toInt).toNat, (y - image.page.y.toInt).toNat, ⟨?_, ?_⟩, ?_, ?_⟩
  · omega
  · omega
  · omega
  · omega

/-- An image that is no smaller than its page covers the whole of it. -/
theorem covers_of_pageRect
    {image : Image}
    (wider : image.page.width.toNat ≤ image.size.width.toNat)
    (taller : image.page.height.toNat ≤ image.size.height.toNat)
    {x y : Int}
    (covers : image.pageRect.Covers x y) :
    image.onPlane.rect.Covers x y := by
  have right : x < image.page.x.toInt + image.page.width.toNat := covers.1.2
  have bottom : y < image.page.y.toInt + image.page.height.toNat := covers.2.2
  have across : x < image.page.x.toInt + image.size.width.toNat := by omega
  have down : y < image.page.y.toInt + image.size.height.toNat := by omega
  exact ⟨⟨covers.1.1, across⟩, covers.2.1, down⟩

theorem paint_onCanvas
    {box : Rect}
    {image : Image}
    (surrounds : box.Surrounds image.onPlane.rect)
    (column row : Int)
    (under : Color) :
    Drawing.paint column row under (image.onCanvas box) =
      Drawing.paint (box.x.toInt + column) (box.y.toInt + row) under image.onPlane := by
  obtain ⟨x, y⟩ := surrounds.toInt_sub
  have across : (image.onCanvas box).x.toInt = image.onPlane.x.toInt - box.x.toInt := x
  have down : (image.onCanvas box).y.toInt = image.onPlane.y.toInt - box.y.toInt := y
  have left : column - (image.onCanvas box).x.toInt =
      box.x.toInt + column - image.onPlane.x.toInt := by omega
  have top : row - (image.onCanvas box).y.toInt =
      box.y.toInt + row - image.onPlane.y.toInt := by omega
  have covers : (image.onCanvas box).rect.Covers column row ↔
      image.onPlane.rect.Covers (box.x.toInt + column) (box.y.toInt + row) := by
    have width : (image.onCanvas box).raster.width = image.onPlane.raster.width := rfl
    have height : (image.onCanvas box).raster.height = image.onPlane.raster.height := rfl
    rw [Drawing.covers_rect_iff, Drawing.covers_rect_iff, width, height]
    omega
  simp only [Drawing.paint, covers, left, top]
  rfl

end Image

namespace Layers

/-- The rectangles of the plane that images cover. -/
def places (images : List Image) : List Rect :=
  images.map fun image => image.onPlane.rect

/-- An image that shows others where they lie on the plane. -/
structure IsMerged (images : List Image) (background : Color) (merged : Image) : Prop where
  /-- Its page is a box around the images. -/
  around : merged.pageRect.IsBoxAround (places images)
  /-- Whatever rectangle surrounds all images surrounds its page. -/
  least : ∀ other : Rect, (∀ r ∈ places images, other.Surrounds r) →
    other.Surrounds merged.pageRect
  /-- It has the size of its page, but at least one pixel each way. -/
  size : merged.size = Size.atLeastOne ⟨merged.page.width, merged.page.height⟩
  /-- Each pixel of an image falls on one of its pixels. -/
  covers : ∀ image ∈ images, ∀ {x y : Int}, image.onPlane.rect.Covers x y →
    merged.onPlane.rect.Covers x y
  /-- Each of its pixels is the background, composed in order with the images that cover it. -/
  colors : ∀ {x y : Int}, merged.onPlane.rect.Covers x y →
    merged.raster.get (x - merged.page.x.toInt).toNat (y - merged.page.y.toInt).toNat =
      (images.map Image.onPlane).foldl (Drawing.paint x y) background

variable {first : Image} {rest : List Image}

theorem layerPlaces_pages
    (images : List Image) :
    layerPlaces (pages images) = places images := by
  rw [layerPlaces, pages, List.map_map]
  rfl

theorem raster_flatten_merge
    (first : Image)
    (rest : List Image) :
    let box := layerBounds (pages (first :: rest))
    (flatten .merge first rest).raster =
      ((first :: rest).map (Image.onCanvas box)).foldl Drawing.onto
        (Raster.fill (Size.atLeastOne ⟨box.width, box.height⟩) first.background) := by
  intro box
  rw [List.foldl_map]
  rfl

theorem pageRect_flatten_merge
    (first : Image)
    (rest : List Image) :
    (flatten .merge first rest).pageRect = layerBounds (pages (first :: rest)) := by
  rw [← show canvasOf .merge first rest = layerBounds (pages (first :: rest)) from rfl]
  rfl

theorem le_atLeastOne
    (size : Size) :
    size.width.toNat ≤ size.atLeastOne.width.toNat ∧
      size.height.toNat ≤ size.atLeastOne.height.toNat := by
  have le (n : UInt32) : n ≤ max 1 n := by
    change n ≤ if 1 ≤ n then n else 1
    split
    · exact UInt32.le_refl n
    · next less => exact UInt32.le_of_lt (UInt32.not_le.mp less)
  exact ⟨UInt32.le_iff_toNat_le.mp (le _), UInt32.le_iff_toNat_le.mp (le _)⟩

theorem size_flatten_merge
    (first : Image)
    (rest : List Image) :
    let merged := flatten .merge first rest
    merged.size = Size.atLeastOne ⟨merged.page.width, merged.page.height⟩ := by
  intro merged
  calc merged.size = merged.raster.size := rfl
    _ = Size.atLeastOne ⟨merged.page.width, merged.page.height⟩ := by
      rw [show merged.raster = _ from raster_flatten_merge first rest, Drawing.size_foldl_onto]
      rfl

/-- A pixel of a canvas that is cut out of the plane shows what lies on the plane behind it. -/
theorem get_foldl_onCanvas
    {box : Rect}
    {images : List Image}
    (surrounds : ∀ image ∈ images, box.Surrounds image.onPlane.rect)
    {size : Size}
    {column row : Nat}
    (inside : size.Contains column row)
    (background : Color) :
    ((images.map (Image.onCanvas box)).foldl Drawing.onto
        (Raster.fill size background)).get column row =
      (images.map Image.onPlane).foldl
        (Drawing.paint (box.x.toInt + column) (box.y.toInt + row)) background := by
  have onBlank : (Raster.fill size background).size.Contains column row := inside
  rw [Drawing.get_foldl_onto _ onBlank, Raster.get_fill _ inside, List.foldl_map, List.foldl_map]
  exact List.foldl_ext _ _ _ fun under image mem =>
    image.paint_onCanvas (surrounds image mem) column row under

theorem get_flatten_merge
    (surrounds : ∀ image ∈ first :: rest,
      (flatten .merge first rest).pageRect.Surrounds image.onPlane.rect)
    {column row : Nat}
    (inside : (flatten .merge first rest).size.Contains column row) :
    let box := (flatten .merge first rest).pageRect
    (flatten .merge first rest).raster.get column row =
      ((first :: rest).map Image.onPlane).foldl
        (Drawing.paint (box.x.toInt + column) (box.y.toInt + row)) first.background := by
  intro box
  have drawn := raster_flatten_merge first rest
  rw [← pageRect_flatten_merge] at drawn
  rw [size_flatten_merge] at inside
  rw [drawn]
  exact get_foldl_onCanvas surrounds inside first.background

/-- Images that span less than a length counts and end in range are merged onto the box around
them. -/
theorem flatten_merge_isMerged
    (inRange : Rect.EndInRange (places (first :: rest)))
    (span : Rect.SpanLength (places (first :: rest))) :
    IsMerged (first :: rest) first.background (flatten .merge first rest) := by
  have around : (flatten .merge first rest).pageRect.IsBoxAround (places (first :: rest)) := by
    rw [← layerPlaces_pages] at inRange span ⊢
    rw [pageRect_flatten_merge]
    exact isBoxAround_layerBounds (List.cons_ne_nil _ _) inRange span
  have surrounds : ∀ image ∈ first :: rest,
      (flatten .merge first rest).pageRect.Surrounds image.onPlane.rect := fun image mem =>
    around.surrounds _ (List.mem_map_of_mem mem)
  have size := size_flatten_merge first rest
  refine ⟨around, fun other => around.least, size, fun image mem x y covers => ?_,
    fun {x y} covers => ?_⟩
  · have onPage := (surrounds image mem).covers covers
    have wider := le_atLeastOne
      ⟨(flatten .merge first rest).page.width, (flatten .merge first rest).page.height⟩
    rw [← size] at wider
    exact Image.covers_of_pageRect wider.1 wider.2 onPage
  · obtain ⟨column, row, inside, rfl, rfl⟩ := Image.exists_pixel covers
    rw [add_sub_cancel_left, add_sub_cancel_left, Int.toNat_natCast, Int.toNat_natCast]
    exact get_flatten_merge surrounds inside

end Layers

/-! ## Frames of an animation -/

/-- An image as a drawing over what is on its canvas, at the offset of its page. -/
def Image.overCanvas (image : Image) : Drawing :=
  ⟨image.raster, image.page.x, image.page.y, .over⟩

namespace Layers

variable {size : Size} {canvas : Raster} {images : List Image}

/-- An image on a canvas of a size, over the images before it. -/
structure IsFrame (canvas : Size) (before : List Image) (image frame : Image) : Prop where
  /-- Its page is the canvas; all but page and pixels is as in the image. -/
  kept : frame = { image.withRaster frame.raster with page := ⟨canvas.width, canvas.height, 0, 0⟩ }
  /-- It has the size of the canvas. -/
  size : frame.size = canvas
  /-- Each pixel is composed in turn with the images that cover it, the image itself last. -/
  colors : ∀ {x y : Nat}, canvas.Contains x y →
    frame.raster.get x y =
      ((before ++ [image]).map Image.overCanvas).foldl (Drawing.paint x y) Color.transparent

/-- For each image its frame, over the images before it. -/
structure AreFrames (canvas : Size) (images frames : List Image) : Prop where
  /-- There are as many frames as images. -/
  length : frames.length = images.length
  /-- Each is the frame of its image. -/
  frame : ∀ {k : Nat} {image : Image}, images[k]? = some image →
    ∃ frame, frames[k]? = some frame ∧ IsFrame canvas (images.take k) image frame

theorem length_coalesceOnto
    (size : Size)
    (canvas : Raster)
    (images : List Image) :
    (coalesceOnto size canvas images).length = images.length := by
  induction images generalizing canvas with
  | nil => rfl
  | cons image rest inductionHypothesis =>
      rw [coalesceOnto, List.length_cons, inductionHypothesis, List.length_cons]

/-- The first images leave the same canvas behind, whatever follows. -/
theorem coalesceOnto_take
    (size : Size)
    (canvas : Raster)
    (images : List Image)
    (k : Nat) :
    coalesceOnto size canvas (images.take k) = (coalesceOnto size canvas images).take k := by
  induction images generalizing canvas k with
  | nil => rw [List.take_nil, coalesceOnto, List.take_nil]
  | cons image rest inductionHypothesis =>
      cases k with
      | zero => rfl
      | succ k => rw [List.take_succ_cons, coalesceOnto, coalesceOnto, inductionHypothesis,
          List.take_succ_cons]

/-- The canvas of a frame has been drawn onto by the images up to it. -/
theorem getElem?_coalesceOnto
    {k : Nat}
    {image : Image}
    (found : images[k]? = some image) :
    (coalesceOnto size canvas images)[k]? = some
      { image.withRaster
          (((images.take k ++ [image]).map Image.overCanvas).foldl Drawing.onto canvas) with
        page := ⟨size.width, size.height, 0, 0⟩ } := by
  induction images generalizing canvas k with
  | nil => cases found
  | cons first rest inductionHypothesis =>
      cases k with
      | zero =>
          obtain rfl : first = image := Option.some.inj found
          rfl
      | succ k =>
          rw [List.getElem?_cons_succ] at found
          rw [coalesceOnto, List.getElem?_cons_succ, inductionHypothesis found]
          rfl

/-- Images drawn out from a canvas without coverage on become their frames. -/
theorem areFrames_coalesceOnto
    (size : Size)
    (images : List Image) :
    AreFrames size images
      (coalesceOnto size (Raster.fill size Color.transparent) images) := by
  refine ⟨length_coalesceOnto size _ images, fun {k image} found => ?_⟩
  refine ⟨_, getElem?_coalesceOnto found, rfl, Drawing.size_foldl_onto _ _, fun {x y} inside => ?_⟩
  have onBlank : (Raster.fill size Color.transparent).size.Contains x y := inside
  have drawn := Drawing.get_foldl_onto ((images.take k ++ [image]).map Image.overCanvas) onBlank
  rwa [Raster.get_fill _ inside] at drawn

/-- The canvas has the size of the page of the first image, or of the image itself when the page has
no width or no height. -/
theorem canvasSize_eq
    (image : Image) :
    canvasSize image =
      if image.page.width = 0 ∨ image.page.height = 0 then image.size
      else ⟨image.page.width, image.page.height⟩ := by
  have positive (n : UInt32) : 0 < n ↔ ¬ n = 0 := by
    rw [UInt32.lt_iff_toNat_lt, ← UInt32.toNat_inj]
    exact Nat.pos_iff_ne_zero
  simp only [canvasSize, positive, ← not_or, ite_not]

/-- The frames of the first images are the first frames. -/
theorem coalesce_take
    (first : Image)
    (rest : List Image)
    (k : Nat) :
    coalesce first (rest.take k) = (coalesce first rest).take (k + 1) :=
  coalesceOnto_take _ _ (first :: rest) (k + 1)

end Layers
end Darkroom
