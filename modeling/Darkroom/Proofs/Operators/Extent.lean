import Darkroom.Engine.Standard
import Darkroom.Operators.Image.Shape
import Darkroom.Proofs.Geometry.Page
import Darkroom.Proofs.Number.Arithmetic
import Darkroom.Proofs.Pixels.Drawings
import Darkroom.Session.Apply

/-!
# Images put on another canvas and back

A gravity puts a share of the free space of a canvas before an object: none of it, half of it cut to
whole pixels, or all of it.  A canvas that is smaller than its object has free space below zero, and
its share is the opposite one, because halves are cut toward zero.  So an image that is put on a
larger canvas and then on one of its own size comes back to its place, and its opaque colors cover
every background.
-/

namespace Darkroom

/-! ## Gravity -/

/-- How much of the free space of a canvas lies before an object. -/
inductive Share where
  /-- The object is at the near edge. -/
  | none
  /-- The object is in the middle. -/
  | half
  /-- The object is at the far edge. -/
  | whole
deriving DecidableEq, Repr

namespace Share

/-- The share of a space. -/
def of : Share → Int → Int
  | none, _ => 0
  | half, space => space.tdiv 2
  | whole, space => space

/-- The share of the opposite space is the opposite one, for odd and even spaces alike. -/
theorem of_neg
    (share : Share)
    (space : Int) :
    share.of (-space) = -share.of space := by
  cases share with
  | none => rfl
  | half => exact Int.neg_tdiv space 2
  | whole => rfl

theorem of_mem
    (share : Share)
    {space : Int}
    (nonnegative : 0 ≤ space) :
    0 ≤ share.of space ∧ share.of space ≤ space := by
  cases share with
  | none => exact ⟨Int.le_refl 0, nonnegative⟩
  | half =>
      rw [of, Int.tdiv_eq_ediv_of_nonneg nonnegative]
      omega
  | whole => exact ⟨nonnegative, Int.le_refl space⟩

/-- The share of the columns. -/
def across : Gravity → Share
  | .northWest | .west | .southWest | .undefined | .forget => none
  | .north | .center | .south => half
  | .northEast | .east | .southEast => whole

/-- The share of the rows. -/
def down : Gravity → Share
  | .northWest | .north | .northEast | .undefined | .forget => none
  | .west | .center | .east => half
  | .southWest | .south | .southEast => whole

end Share

theorem toInt_wide_sub_wide
    (canvas object : UInt32) :
    (wide canvas - wide object).toInt = (canvas.toNat : Int) - object.toNat := by
  have canvasLess := canvas.toNat_lt
  have objectLess := object.toNat_lt
  rw [Int64.toInt_sub, toInt_wide, toInt_wide, Int.bmod_def]
  omega

/-- A gravity puts an object behind its share of the free space. -/
theorem toInt_gravityOffset
    (gravity : Gravity)
    (canvas object : Size) :
    (gravityOffset gravity canvas object 0 0).1.toInt =
        (Share.across gravity).of ((canvas.width.toNat : Int) - object.width.toNat) ∧
      (gravityOffset gravity canvas object 0 0).2.toInt =
        (Share.down gravity).of ((canvas.height.toNat : Int) - object.height.toNat) := by
  have width := toInt_wide_sub_wide canvas.width object.width
  have height := toInt_wide_sub_wide canvas.height object.height
  have half (n : Int64) : (n / 2).toInt = n.toInt.tdiv 2 :=
    Int64.toInt_div_of_ne_right n 2 (by decide)
  cases gravity <;>
    simp [gravityOffset, Share.across, Share.down, Share.of, half, width, height]

/-! ## Rasters -/

namespace Raster

variable {r : Raster} {x y x' y' : Int64}

/-- An opaque color that is drawn on a canvas is the one that is seen there. -/
theorem get_onCanvas_of_solid
    {size : Size}
    {column row m n : Nat}
    (inside : size.Contains column row)
    (column_eq : (column : Int) - x.toInt = m)
    (row_eq : (row : Int) - y.toInt = n)
    (within : r.size.Contains m n)
    (solid : (r.get m n).alpha = 255)
    (background : Color) :
    (r.onCanvas size background x y .over).get column row = r.get m n := by
  have onCanvas : (fill size background).size.Contains column row := inside
  rw [Raster.onCanvas, get_drawOnto _ _ _ _ onCanvas, column_eq, row_eq, get?_eq, if_pos within]
  exact Blend.pixel_over_of_opaque solid _

/-- An opaque raster that is put on a larger canvas, and then with the opposite offset on one of its
own size, is what it was. -/
theorem onCanvas_onCanvas
    (solid : ∀ c ∈ r.pixels, c.alpha = 255)
    {outer : Size}
    (left : 0 ≤ x.toInt)
    (right : x.toInt + r.width ≤ outer.width.toNat)
    (top : 0 ≤ y.toInt)
    (bottom : y.toInt + r.height ≤ outer.height.toNat)
    (back : x'.toInt = -x.toInt)
    (up : y'.toInt = -y.toInt)
    (below above : Color) :
    (r.onCanvas outer below x y .over).onCanvas r.size above x' y' .over = r := by
  refine ext_get rfl fun column row inside => ?_
  obtain ⟨columnLess, rowLess⟩ : column < r.width ∧ row < r.height := inside
  obtain ⟨m, m_eq⟩ := Int.eq_ofNat_of_zero_le (show 0 ≤ (column : Int) + x.toInt by omega)
  obtain ⟨n, n_eq⟩ := Int.eq_ofNat_of_zero_le (show 0 ≤ (row : Int) + y.toInt by omega)
  have onOuter : m < outer.width.toNat ∧ n < outer.height.toNat := by omega
  have within : (r.onCanvas outer below x y .over).size.Contains m n := onOuter
  have covers := solid _ (get_mem (r := r) ⟨columnLess, rowLess⟩)
  have drawn : (r.onCanvas outer below x y .over).get m n = r.get column row :=
    get_onCanvas_of_solid onOuter (by omega) (by omega) ⟨columnLess, rowLess⟩ covers below
  calc ((r.onCanvas outer below x y .over).onCanvas r.size above x' y' .over).get column row
      = (r.onCanvas outer below x y .over).get m n :=
        get_onCanvas_of_solid ⟨columnLess, rowLess⟩ (by omega) (by omega) within
          (by rwa [drawn]) above
    _ = r.get column row := drawn

end Raster

/-! ## The operator -/

open Decimal (whole)

theorem zero_lt_whole
    {n : UInt32}
    (positive : 0 < n) :
    0.0 < whole n.toNat := by
  obtain ⟨mantissa, exponent, value, decoded, -⟩ := Decimal.standsFor_whole_toNat n
  refine Binary.zero_lt_of_finite decoded (Nat.pos_of_ne_zero ?_)
  rintro rfl
  have nothing : Binary.wholePart 0 exponent = 0 := by
    unfold Binary.wholePart
    split <;> simp
  have value_eq : n.toNat = 0 := value.symm.trans nothing
  exact absurd (UInt32.lt_iff_toNat_lt.mp positive) (by rw [value_eq]; decide)

/-- `-extent` with a size. -/
def Invocation.extent (size : Size) : Invocation :=
  .of "-extent" (some (sizeText size.width.toNat size.height.toNat)) none

/-- The canvas of a size that is asked for: a side of zero is that of the image. -/
def Size.orThat (asked image : Size) : Size :=
  ⟨if 0 < asked.width then asked.width else image.width,
    if 0 < asked.height then asked.height else image.height⟩

theorem Size.orThat_of_positive
    {asked : Size}
    (positive : 0 < asked.width ∧ 0 < asked.height)
    (image : Size) :
    asked.orThat image = asked := by
  rw [orThat, if_pos positive.1, if_pos positive.2]

namespace ImageOperator

/-- The image goes to the canvas, where its gravity puts it. -/
theorem extent_eq
    (asked : Size)
    (view : View)
    (image : Image) :
    let size := asked.orThat image.size
    let place := gravityOffset image.gravity size image.size 0 0
    extent view image (.extent asked) =
      work (.extent size (0 - place.1) (0 - place.2) image.background) := by
  have region : (Invocation.extent asked).region =
      .ok { width := some (whole asked.width.toNat), height := some (whole asked.height.toNat) } :=
    Invocation.region_of_ofChars? rfl (ofChars?_sizeText _ _)
  have side (n other : UInt32) :
      (((some (whole n.toNat)).filter fun v => 0.0 < v).map truncUInt32).getD other =
        if 0 < n then n else other := by
    rw [Option.filter_some]
    by_cases positive : 0 < n
    · rw [if_pos positive, if_pos (decide_eq_true (zero_lt_whole positive))]
      exact Decimal.truncUInt32_whole_toNat n
    · have zero : n = 0 := UInt32.le_zero_iff.mp (UInt32.not_lt.mp positive)
      have nothing : ¬ 0.0 < whole (0 : UInt32).toNat := by decide
      rw [if_neg positive, zero, if_neg (by rw [decide_eq_true_iff]; exact nothing)]
      rfl
  unfold extent
  rw [region]
  dsimp only [bind, Except.bind]
  rw [side, side]
  cases image.gravity with
  | undefined | forget =>
      dsimp only [gravityOffset]
      rw [Int64.sub_zero]
      rfl
  | _ => rfl

theorem actOnImage_extent
    (asked : Size)
    (image : Image)
    (s : Session Disk) :
    let size := asked.orThat image.size
    let place := gravityOffset image.gravity size image.size 0 0
    s.actOnImage .standard extent (.extent asked) image =
      (.ok (.others [image.withRaster
        (image.raster.onCanvas size image.background place.1 place.2 .over)]), s) := by
  intro size place
  have opposite (n : Int64) : -(0 - n) = n := by
    rw [Int64.zero_sub, Int64.neg_neg]
  have performed : s.actOnImage .standard extent (.extent asked) image =
      (.ok (.others [image.withRaster (image.raster.onCanvas size image.background
        (-(0 - place.1)) (-(0 - place.2)) .over)]), s) := by
    rw [Session.actOnImage, extent_eq asked]
    rfl
  rwa [opposite, opposite] at performed

/-- An image that gets a canvas of a size with pixels. -/
theorem actOnImage_extent_of_positive
    {asked : Size}
    (positive : 0 < asked.width ∧ 0 < asked.height)
    (image : Image)
    (s : Session Disk) :
    let place := gravityOffset image.gravity asked image.size 0 0
    s.actOnImage .standard extent (.extent asked) image =
      (.ok (.others [image.withRaster
        (image.raster.onCanvas asked image.background place.1 place.2 .over)]), s) := by
  have acted := actOnImage_extent asked image s
  rwa [Size.orThat_of_positive positive] at acted

end ImageOperator

/-- An opaque image with pixels that `-extent` puts on a larger canvas, and then on one of its own
size under the same gravity, has its old colors; other attributes may have changed in between. -/
theorem Session.extent_comes_back
    {image : Image}
    (solid : ∀ c ∈ image.raster.pixels, c.alpha = 255)
    (nonempty : 0 < image.size.width ∧ 0 < image.size.height)
    {outer : Size}
    (larger : image.size.width ≤ outer.width ∧ image.size.height ≤ outer.height)
    (s t : Session Disk) :
    ∃ padded,
      s.actOnImage .standard .extent (.extent outer) image = (.ok (.others [padded]), s) ∧
      padded.size = outer ∧
      ∀ taken : Image, taken.bitmap = padded.bitmap → taken.gravity = image.gravity →
        ∃ restored,
          t.actOnImage .standard .extent (.extent image.size) taken =
            (.ok (.others [restored]), t) ∧
          restored.size = image.size ∧ restored.raster = image.raster := by
  obtain ⟨wider, taller⟩ := larger
  have positive : 0 < outer.width ∧ 0 < outer.height := by
    rw [UInt32.lt_iff_toNat_lt, UInt32.lt_iff_toNat_lt] at nonempty ⊢
    rw [UInt32.le_iff_toNat_le] at wider taller
    omega
  have columns : (0 : Int) ≤ (outer.width.toNat : Int) - image.size.width.toNat := by
    rw [UInt32.le_iff_toNat_le] at wider
    omega
  have rows : (0 : Int) ≤ (outer.height.toNat : Int) - image.size.height.toNat := by
    rw [UInt32.le_iff_toNat_le] at taller
    omega
  obtain ⟨x_eq, y_eq⟩ := toInt_gravityOffset image.gravity outer image.size
  obtain ⟨left, right⟩ := (Share.across image.gravity).of_mem columns
  obtain ⟨top, bottom⟩ := (Share.down image.gravity).of_mem rows
  rw [← x_eq] at left right
  rw [← y_eq] at top bottom
  refine ⟨_, ImageOperator.actOnImage_extent_of_positive positive image s, rfl, ?_⟩
  intro taken same placed
  refine ⟨_, ImageOperator.actOnImage_extent_of_positive nonempty taken t, rfl, ?_⟩
  obtain ⟨x_eq', y_eq'⟩ := toInt_gravityOffset taken.gravity image.size taken.size
  have size : taken.size = outer := congrArg Bitmap.size same
  have raster : taken.raster = _ := congrArg Bitmap.raster same
  rw [size, placed, ← Int.neg_sub, Share.of_neg, ← x_eq] at x_eq'
  rw [size, placed, ← Int.neg_sub, Share.of_neg, ← y_eq] at y_eq'
  change taken.raster.onCanvas _ _ _ _ _ = image.raster
  rw [raster, size, placed]
  exact Raster.onCanvas_onCanvas solid left (Int.add_le_of_le_sub_right right) top
    (Int.add_le_of_le_sub_right bottom) x_eq' y_eq' _ _

/-- Two pixels are put into the middle of a canvas with odd space around them, and back. -/
theorem Session.extent_comes_back_to_center :
    let image : Image :=
      { bitmap := Bitmap.rgba (Raster.ofFn ⟨2, 1⟩ fun x _ => ⟨UInt8.ofNat (200 * x), 9, 7, 255⟩)
        gravity := .center }
    let outer : Size := ⟨5, 4⟩
    let s : Session Disk := { world := {} }
    (∀ c ∈ image.raster.pixels, c.alpha = 255) ∧
      (0 < image.size.width ∧ 0 < image.size.height) ∧
      (image.size.width ≤ outer.width ∧ image.size.height ≤ outer.height) ∧
      ∃ padded,
        s.actOnImage .standard .extent (.extent outer) image = (.ok (.others [padded]), s) ∧
        padded.size = outer ∧
        ∀ taken : Image, taken.bitmap = padded.bitmap → taken.gravity = image.gravity →
          ∃ restored,
            s.actOnImage .standard .extent (.extent image.size) taken =
              (.ok (.others [restored]), s) ∧
            restored.size = image.size ∧ restored.raster = image.raster := by
  intro image outer s
  have solid : ∀ c ∈ image.raster.pixels, c.alpha = 255 := by decide
  exact ⟨solid, by decide, by decide, extent_comes_back solid (by decide) (by decide) s s⟩

/-- An image without columns that is put on a canvas with two keeps them: a width of zero stands for
that of the image. -/
theorem Session.extent_keeps_columns :
    let image : Image := { bitmap := Bitmap.rgba (Raster.fill ⟨0, 1⟩ Color.white) }
    let outer : Size := ⟨2, 1⟩
    let s : Session Disk := { world := {} }
    (∀ c ∈ image.raster.pixels, c.alpha = 255) ∧
      (image.size.width ≤ outer.width ∧ image.size.height ≤ outer.height) ∧
      ¬ ∃ padded,
        s.actOnImage .standard .extent (.extent outer) image = (.ok (.others [padded]), s) ∧
        padded.size = outer ∧
        ∀ taken : Image, taken.bitmap = padded.bitmap → taken.gravity = image.gravity →
          ∃ restored,
            s.actOnImage .standard .extent (.extent image.size) taken =
              (.ok (.others [restored]), s) ∧
            restored.size = image.size ∧ restored.raster = image.raster := by
  intro image outer s
  refine ⟨by decide, by decide, ?_⟩
  rintro ⟨padded, -, size, comesBack⟩
  obtain ⟨restored, acted, small, -⟩ := comesBack { padded with gravity := image.gravity } rfl rfl
  rw [ImageOperator.actOnImage_extent] at acted
  injection acted with outcome
  injection outcome with product
  injection product with images
  have size' : restored.size = image.size.orThat padded.size :=
    congrArg Image.size (List.cons.inj images).1.symm
  rw [small, size] at size'
  revert size'
  decide

end Darkroom
