import Darkroom.Engine.Pixel
import Darkroom.Proofs.Geometry.Bounds
import Darkroom.Proofs.Pixels.Drawings

/-!
# Images in a row

Images are drawn onto a canvas in a row, top to bottom or left to right, each where the one before
it ends.  A cursor moves along the row; it stands at the sum of the lengths so far, so that no two
images share a pixel and no pixel between them is left out.
-/

namespace Darkroom

/-! ## Along and across a row -/

namespace Raster

/-- The length of a raster along a row. -/
def along (vertical : Bool) (r : Raster) : Nat :=
  if vertical then r.height else r.width

/-- The breadth of a raster across a row. -/
def across (vertical : Bool) (r : Raster) : Nat :=
  if vertical then r.width else r.height

/-- The color a way along a row and a way across it. -/
def getAlong (vertical : Bool) (r : Raster) (i j : Nat) : Color :=
  if vertical then r.get j i else r.get i j

end Raster

namespace Layers

/-- The length of images in a row. -/
def rowLength (vertical : Bool) (images : List Image) : Nat :=
  (images.map fun image => image.raster.along vertical).sum

/-- An image that shows others in a row, without overlap or gap. -/
structure IsRow (vertical : Bool) (images : List Image) (background : Color) (row : Image) :
    Prop where
  /-- It has no page. -/
  page : row.page = Page.unset
  /-- It is as long as the images together, but at least one pixel. -/
  length : row.raster.along vertical = max 1 (rowLength vertical images)
  /-- It is as broad as the broadest image. -/
  breadth : IsGreatest {n | ∃ image ∈ images, image.raster.across vertical = n}
    (row.raster.across vertical)
  /-- Each image is composed over the background where the images before it end; beside an image is
  the background. -/
  colors : ∀ {before after : List Image} {image : Image}, images = before ++ image :: after →
    ∀ {i j : Nat}, i < image.raster.along vertical → j < row.raster.across vertical →
      row.raster.getAlong vertical (rowLength vertical before + i) j =
        if j < image.raster.across vertical then
          Blend.pixel .over background (image.raster.getAlong vertical i j)
        else background
  /-- An opaque pixel of an image stays what it is. -/
  solid : ∀ {before after : List Image} {image : Image}, images = before ++ image :: after →
    ∀ {i j : Nat}, i < image.raster.along vertical → j < image.raster.across vertical →
      (image.raster.getAlong vertical i j).alpha = 255 →
      row.raster.getAlong vertical (rowLength vertical before + i) j =
        image.raster.getAlong vertical i j
  /-- Behind the last image is the background. -/
  behind : ∀ {i j : Nat}, rowLength vertical images ≤ i → i < row.raster.along vertical →
    j < row.raster.across vertical → row.raster.getAlong vertical i j = background

/-! ## Drawing in a row -/

/-- An image as a drawing in a row. -/
def inRow (vertical : Bool) (start : Nat) (image : Image) : Drawing :=
  if vertical then ⟨image.raster, 0, Int64.ofNat start, .over⟩
  else ⟨image.raster, Int64.ofNat start, 0, .over⟩

/-- Images as drawings in a row, from a place on. -/
def rowFrom (vertical : Bool) (start : Nat) : List Image → List Drawing
  | [] => []
  | image :: rest =>
      inRow vertical start image :: rowFrom vertical (start + image.raster.along vertical) rest

/-- An image drawn where the cursor stands, and the cursor behind it. -/
def drawNext (vertical : Bool) (gap : Int64) (state : Raster × Int64) (image : Image) :
    Raster × Int64 :=
  let (canvas, place) := state
  let (x, y) := if vertical then (0, place) else (place, 0)
  let step := wide (if vertical then image.size.height else image.size.width)
  (image.raster.drawOnto canvas x y .over, place + (step + gap))

variable {vertical : Bool} {image first : Image} {images rest : List Image}

theorem rowLength_cons
    (vertical : Bool)
    (image : Image)
    (rest : List Image) :
    rowLength vertical (image :: rest) =
      image.raster.along vertical + rowLength vertical rest :=
  List.sum_cons

theorem rowLength_append
    (vertical : Bool)
    (before after : List Image) :
    rowLength vertical (before ++ after) =
      rowLength vertical before + rowLength vertical after := by
  rw [rowLength, List.map_append, List.sum_append]
  rfl

theorem wide_along
    (vertical : Bool)
    (image : Image) :
    wide (if vertical then image.size.height else image.size.width) =
      Int64.ofNat (image.raster.along vertical) := by
  have word (n : UInt32) : wide n = Int64.ofNat n.toNat := by
    have less := n.toNat_lt
    rw [← Int64.toInt_inj, toInt_wide, Int64.toInt_ofNat_of_lt (by omega)]
  cases vertical with
  | false => exact word _
  | true => exact word _

theorem drawNext_ofNat
    (vertical : Bool)
    (canvas : Raster)
    (start : Nat)
    (image : Image) :
    drawNext vertical 0 (canvas, Int64.ofNat start) image =
      (Drawing.onto canvas (inRow vertical start image),
        Int64.ofNat (start + image.raster.along vertical)) := by
  have next : Int64.ofNat start +
      (wide (if vertical then image.size.height else image.size.width) + 0) =
        Int64.ofNat (start + image.raster.along vertical) := by
    rw [wide_along, Int64.add_zero, Int64.ofNat_add]
  cases vertical with
  | false => exact congrArg (Prod.mk _) next
  | true => exact congrArg (Prod.mk _) next

/-- The cursor stands at the sum of the lengths of the images that are drawn. -/
theorem foldl_drawNext
    (vertical : Bool)
    (images : List Image)
    (canvas : Raster)
    (start : Nat) :
    (images.foldl (drawNext vertical 0) (canvas, Int64.ofNat start)).1 =
      (rowFrom vertical start images).foldl Drawing.onto canvas := by
  induction images generalizing canvas start with
  | nil => rfl
  | cons image rest inductionHypothesis =>
      rw [List.foldl_cons, drawNext_ofNat, inductionHypothesis]
      rfl

theorem rowFrom_append
    (vertical : Bool)
    (start : Nat)
    (before after : List Image) :
    rowFrom vertical start (before ++ after) =
      rowFrom vertical start before ++
        rowFrom vertical (start + rowLength vertical before) after := by
  induction before generalizing start with
  | nil => rfl
  | cons image rest inductionHypothesis =>
      rw [List.cons_append, rowFrom, rowFrom, inductionHypothesis, List.cons_append, rowLength_cons,
        Nat.add_assoc]

/-! ## Pixels of a row -/

/-- The pixel a way along a row and a way across it. -/
def pixel (vertical : Bool) (i j : Nat) : Nat × Nat :=
  if vertical then (j, i) else (i, j)

theorem getAlong_eq
    (vertical : Bool)
    (r : Raster)
    (i j : Nat) :
    r.getAlong vertical i j = r.get (pixel vertical i j).1 (pixel vertical i j).2 := by
  cases vertical with
  | false => rfl
  | true => rfl

theorem contains_pixel_iff
    {r : Raster}
    {i j : Nat} :
    r.size.Contains (pixel vertical i j).1 (pixel vertical i j).2 ↔
      i < r.along vertical ∧ j < r.across vertical := by
  cases vertical with
  | false => exact Iff.rfl
  | true => exact and_comm

/-- A drawing in a row covers the stretch of the row behind its start. -/
theorem covers_inRow_iff
    {start i j : Nat}
    (inRange : start < 2 ^ 63) :
    (inRow vertical start image).rect.Covers (pixel vertical i j).1 (pixel vertical i j).2 ↔
      (start ≤ i ∧ i < start + image.raster.along vertical) ∧ j < image.raster.across vertical := by
  have place := Int64.toInt_ofNat_of_lt inRange
  cases vertical with
  | false =>
      simp only [Drawing.covers_rect_iff, inRow, pixel, Raster.along, Raster.across, place,
        Int64.toInt_zero, Bool.false_eq_true, if_false]
      omega
  | true =>
      simp only [Drawing.covers_rect_iff, inRow, pixel, Raster.along, Raster.across, place,
        Int64.toInt_zero, if_true]
      omega

/-- A drawing in a row is composed over its stretch of the row. -/
theorem paint_inRow
    {start : Nat}
    (inRange : start < 2 ^ 63)
    (i j : Nat)
    (under : Color) :
    Drawing.paint (pixel vertical i j).1 (pixel vertical i j).2 under
        (inRow vertical start image) =
      if (start ≤ i ∧ i < start + image.raster.along vertical) ∧ j < image.raster.across vertical
      then Blend.pixel .over under (image.raster.getAlong vertical (i - start) j)
      else under := by
  have place := Int64.toInt_ofNat_of_lt inRange
  rw [Drawing.paint]
  by_cases covered : (start ≤ i ∧ i < start + image.raster.along vertical) ∧
      j < image.raster.across vertical
  · rw [if_pos covered, if_pos ((covers_inRow_iff inRange).mpr covered), getAlong_eq]
    have left : ((i : Int) - (Int64.ofNat start).toInt).toNat = i - start := by omega
    have top : ((j : Int) - (0 : Int64).toInt).toNat = j := by
      rw [Int64.toInt_zero]
      omega
    cases vertical with
    | false =>
        simp only [inRow, pixel, Bool.false_eq_true, if_false, left, top]
    | true =>
        simp only [inRow, pixel, if_true, left, top]
  · rw [if_neg covered, if_neg (mt (covers_inRow_iff inRange).mp covered)]

/-- Images in a row leave the rest of the row alone. -/
theorem foldl_paint_outside
    {start i : Nat}
    (inRange : start + rowLength vertical images < 2 ^ 63)
    (outside : i < start ∨ start + rowLength vertical images ≤ i)
    (j : Nat)
    (under : Color) :
    (rowFrom vertical start images).foldl
      (Drawing.paint (pixel vertical i j).1 (pixel vertical i j).2) under = under := by
  induction images generalizing start with
  | nil => rfl
  | cons image rest inductionHypothesis =>
      rw [rowLength_cons] at inRange outside
      rw [rowFrom, List.foldl_cons, paint_inRow (by omega), if_neg (by omega),
        inductionHypothesis (by omega) (by omega)]

/-- Of images in a row one is composed over what was there, where those before it end. -/
theorem foldl_paint_row
    {before after : List Image}
    (inRange : rowLength vertical (before ++ image :: after) < 2 ^ 63)
    {i : Nat}
    (along : i < image.raster.along vertical)
    (j : Nat)
    (under : Color) :
    (rowFrom vertical 0 (before ++ image :: after)).foldl
      (Drawing.paint (pixel vertical (rowLength vertical before + i) j).1
        (pixel vertical (rowLength vertical before + i) j).2) under =
      if j < image.raster.across vertical then
        Blend.pixel .over under (image.raster.getAlong vertical i j)
      else under := by
  rw [rowLength_append, rowLength_cons] at inRange
  let paint := Drawing.paint (pixel vertical (rowLength vertical before + i) j).1
    (pixel vertical (rowLength vertical before + i) j).2
  have front : (rowFrom vertical 0 before).foldl paint under = under :=
    foldl_paint_outside (by omega) (.inr (by omega)) j under
  have back (color : Color) :
      (rowFrom vertical (rowLength vertical before + image.raster.along vertical) after).foldl
        paint color = color :=
    foldl_paint_outside (by omega) (.inl (by omega)) j color
  rw [rowFrom_append, List.foldl_append, front, Nat.zero_add, rowFrom, List.foldl_cons, back,
    paint_inRow (by omega), Nat.add_sub_cancel_left]
  refine if_congr ?_ rfl rfl
  omega

/-! ## The size of a row -/

theorem foldl_along
    (vertical : Bool)
    (images : List Image)
    (start : Nat) :
    images.foldl
        (fun n image => n + wide (if vertical then image.size.height else image.size.width))
        (Int64.ofNat start) =
      Int64.ofNat (start + rowLength vertical images) := by
  induction images generalizing start with
  | nil => rfl
  | cons image rest inductionHypothesis =>
      rw [List.foldl_cons, wide_along, ← Int64.ofNat_add, inductionHypothesis, rowLength_cons,
        Nat.add_assoc]

theorem toInt_extent_fst
    (fits : rowLength vertical images < 2 ^ 32) :
    (extent vertical 0 images).1.toInt = max 1 (rowLength vertical images : Int) := by
  have length := foldl_along vertical images 0
  rw [Nat.zero_add] at length
  have extent_eq : (extent vertical 0 images).1 =
      max 1 (Int64.ofNat (rowLength vertical images) +
        0 * (Int64.ofNat images.length - 1)) := by
    rw [← length]
    rfl
  rw [extent_eq, Int64.zero_mul, Int64.add_zero, toInt_max, Int64.toInt_ofNat_of_lt (by omega)]
  rfl

/-- The breadth of a row is that of one of its images. -/
theorem extent_snd
    (vertical : Bool)
    (first : Image)
    (rest : List Image) :
    ∃ n : UInt32, (extent vertical 0 (first :: rest)).2 = wide n ∧
      IsGreatest {m | ∃ image ∈ first :: rest, image.raster.across vertical = m} n.toNat := by
  let side (image : Image) : UInt32 := if vertical then image.size.width else image.size.height
  have side_eq (image : Image) : (side image).toNat = image.raster.across vertical := by
    cases vertical with
    | false => rfl
    | true => rfl
  obtain ⟨breadth, greatest⟩ := Option.isSome_iff_exists.mp (List.isSome_max?_of_ne_nil
    (l := (first :: rest).map fun image => wide (side image)) (by simp))
  obtain ⟨member, above⟩ := List.max?_eq_some_iff.mp greatest
  obtain ⟨broadest, mem, rfl⟩ := List.mem_map.mp member
  refine ⟨side broadest, ?_, ⟨broadest, mem, (side_eq broadest).symm⟩, ?_⟩
  · have nonnegative : (0 : Int64) ≤ wide (side broadest) := by
      rw [Int64.le_iff_toInt_le, toInt_wide, Int64.toInt_zero]
      omega
    rw [← foldl_max_eq greatest nonnegative, List.foldl_map]
    rfl
  · rintro m ⟨image, imageMem, rfl⟩
    have below := Int64.le_iff_toInt_le.mp (above _ (List.mem_map_of_mem imageMem))
    rw [toInt_wide, toInt_wide] at below
    rw [← side_eq]
    omega

/-- The size of the canvas for a row. -/
def rowSize (vertical : Bool) (images : List Image) : Size :=
  let (length, breadth) := extent vertical 0 images
  if vertical then ⟨narrow breadth, narrow length⟩ else ⟨narrow length, narrow breadth⟩

theorem raster_append
    (vertical : Bool)
    (first : Image)
    (rest : List Image) :
    (append vertical 0 first rest).raster =
      (rowFrom vertical 0 (first :: rest)).foldl Drawing.onto
        (Raster.fill (rowSize vertical (first :: rest)) first.background) := by
  rw [← foldl_drawNext]
  rfl

theorem sides_append
    (vertical : Bool)
    (first : Image)
    (rest : List Image) :
    (append vertical 0 first rest).raster.along vertical =
        (narrow (extent vertical 0 (first :: rest)).1).toNat ∧
      (append vertical 0 first rest).raster.across vertical =
        (narrow (extent vertical 0 (first :: rest)).2).toNat := by
  have size := congrArg Raster.size (raster_append vertical first rest)
  rw [Drawing.size_foldl_onto] at size
  unfold Raster.along Raster.across Raster.width Raster.height
  rw [size]
  cases vertical with
  | false => exact ⟨rfl, rfl⟩
  | true => exact ⟨rfl, rfl⟩

/-- A pixel of the row is composed in turn with the images of the row. -/
theorem getAlong_append
    {i j : Nat}
    (inLength : i < (append vertical 0 first rest).raster.along vertical)
    (inBreadth : j < (append vertical 0 first rest).raster.across vertical) :
    (append vertical 0 first rest).raster.getAlong vertical i j =
      (rowFrom vertical 0 (first :: rest)).foldl
        (Drawing.paint (pixel vertical i j).1 (pixel vertical i j).2) first.background := by
  have inside := contains_pixel_iff.mpr ⟨inLength, inBreadth⟩
  rw [raster_append, Drawing.size_foldl_onto] at inside
  have onCanvas : (rowSize vertical (first :: rest)).Contains (pixel vertical i j).1
      (pixel vertical i j).2 := inside
  rw [getAlong_eq, raster_append, Drawing.get_foldl_onto _ inside, Raster.get_fill _ onCanvas]

/-- A row is as long as its images together, but at least one pixel. -/
theorem along_append
    (fits : rowLength vertical (first :: rest) < 2 ^ 32) :
    (append vertical 0 first rest).raster.along vertical =
      max 1 (rowLength vertical (first :: rest)) := by
  have length := (sides_append vertical first rest).1
  have word := toInt_extent_fst fits
  have narrowed := toNat_narrow (n := (extent vertical 0 (first :: rest)).1)
    (by omega) (by omega)
  omega

/-- A row is as broad as the broadest of its images. -/
theorem across_append
    (vertical : Bool)
    (first : Image)
    (rest : List Image) :
    IsGreatest {n | ∃ image ∈ first :: rest, image.raster.across vertical = n}
      ((append vertical 0 first rest).raster.across vertical) := by
  obtain ⟨n, word, greatest⟩ := extent_snd vertical first rest
  have less := n.toNat_lt
  have narrowed := toNat_narrow (n := wide n) (by rw [toInt_wide]; omega)
    (by rw [toInt_wide]; omega)
  rw [toInt_wide] at narrowed
  rw [(sides_append vertical first rest).2, word]
  rwa [← Int.natCast_inj.mp narrowed] at greatest

/-- Of a row one image is composed over the background, where those before it end. -/
theorem getAlong_append_of_image
    (fits : rowLength vertical (first :: rest) < 2 ^ 32)
    {before after : List Image}
    (found : first :: rest = before ++ image :: after)
    {i j : Nat}
    (along : i < image.raster.along vertical)
    (inBreadth : j < (append vertical 0 first rest).raster.across vertical) :
    (append vertical 0 first rest).raster.getAlong vertical (rowLength vertical before + i) j =
      if j < image.raster.across vertical then
        Blend.pixel .over first.background (image.raster.getAlong vertical i j)
      else first.background := by
  have length := along_append fits
  have split : rowLength vertical (first :: rest) = rowLength vertical before +
      (image.raster.along vertical + rowLength vertical after) := by
    rw [found, rowLength_append, rowLength_cons]
  rw [getAlong_append (by omega) inBreadth, found]
  exact foldl_paint_row (by rw [← found]; omega) along j _

/-- Images whose lengths together are a length are laid in a row. -/
theorem append_isRow
    (fits : rowLength vertical (first :: rest) < 2 ^ 32) :
    IsRow vertical (first :: rest) first.background (append vertical 0 first rest) := by
  have greatest := across_append vertical first rest
  refine ⟨rfl, along_append fits, greatest, getAlong_append_of_image fits, ?_, ?_⟩
  · intro before after image found i j along across solid
    have inBreadth : j < (append vertical 0 first rest).raster.across vertical :=
      Nat.lt_of_lt_of_le across (greatest.2 ⟨image, by simp [found], rfl⟩)
    rw [getAlong_append_of_image fits found along inBreadth, if_pos across]
    exact Blend.pixel_over_of_opaque solid _
  · intro i j beyond inLength inBreadth
    rw [getAlong_append inLength inBreadth]
    exact foldl_paint_outside (by omega) (.inr (by omega)) j _

end Layers
end Darkroom
