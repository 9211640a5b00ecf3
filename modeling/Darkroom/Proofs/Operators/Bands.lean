import Darkroom.Engine.Standard
import Darkroom.Operators.Image.Shape
import Darkroom.Proofs.Geometry.Page
import Darkroom.Proofs.Number.Arithmetic
import Darkroom.Proofs.Pixels.Bands
import Darkroom.Session.Apply

/-!
# Bands that options ask for

`-border`, `-shave`, `-chop` and `-splice` ask for a length and for a place, of the columns and of
the rows.  A length is a whole number without a bound, and where the columns and rows of the result
should come from follows from such numbers.  The pixel engine computes in words of 32 bits instead:
as long as the numbers that it computes with fit, it gives the image that was asked for, or it
refuses because nothing would be left.

They need not fit.  A chop cuts its place down to a word without bringing it into range, as a splice
does, so that a band far to the right of an image comes back to its left edge.
-/

namespace Darkroom

/-! ## Lengths -/

/-- How many whole pixels a value stands for, without a bound: none below zero, and none for what is
not a number.  An infinity has no such length. -/
def pixels? (x : Float) : Option Nat :=
  match Binary.ofFloat x with
  | .undefined => some 0
  | .infinite negative => if negative then some 0 else none
  | .finite negative mantissa exponent =>
      some (if negative then 0 else Binary.wholePart mantissa exponent)

/-- A length that fits is not changed by its word. -/
theorem toNat_lengthAtLeast_zero
    {x : Float}
    {length : Nat}
    (asked : pixels? x = some length)
    (fits : length < 2 ^ 32) :
    (ImageOperator.lengthAtLeast 0.0 x).toNat = length := by
  rw [ImageOperator.lengthAtLeast, truncUInt32_greatest_zero, truncUInt32]
  unfold pixels? at asked
  cases decoded : Binary.ofFloat x with
  | undefined =>
      rw [decoded] at asked
      cases asked
      rfl
  | infinite negative =>
      rw [decoded] at asked
      cases negative with
      | false => cases asked
      | true =>
          cases asked
          rfl
  | finite negative mantissa exponent =>
      rw [decoded] at asked
      rw [Binary.toIntBy, UInt32.toNat_ofNat']
      cases negative with
      | false =>
          have value : Binary.wholePart mantissa exponent = length := Option.some.inj asked
          simp only [Bool.false_eq_true, if_false]
          omega
      | true =>
          have value : 0 = length := Option.some.inj asked
          simp only [if_true]
          omega

/-! ## What is asked for -/

/-- What is asked of the columns, or of the rows: a place and a length. -/
structure Band where
  /-- Where the band starts; a place that has been brought to the end of its range lies beyond every
  image. -/
  start : Int64
  /-- How long it is, before it is cut to whole pixels. -/
  length : Float

/-- The operators that treat columns and rows apart. -/
inductive BandOperator where
  /-- New columns and rows around the image. -/
  | border
  /-- Columns and rows at every edge are taken away. -/
  | shave
  /-- A band of columns and one of rows are taken away. -/
  | chop
  /-- A band of columns and one of rows are inserted. -/
  | splice
deriving DecidableEq, Repr

namespace BandOperator

open Decimal (whole signedWhole)
open ImageOperator (scaled sigmaOrRho)

/-- The operator on one image. -/
def operator : BandOperator → ImageOperator
  | border => ImageOperator.border
  | shave => ImageOperator.shave
  | chop => ImageOperator.chop
  | splice => ImageOperator.splice

/-- What the argument asks of the columns and of the rows: a geometry, perhaps in percent, or a
region, where a missing height is the width and missing lengths are those of the image. -/
def asked (op : BandOperator) (size : Size) (inv : Invocation) : Except Fault (Band × Band) :=
  match op with
  | border | shave => do
      let g ← inv.geometry
      return (⟨0, scaled g g.rhoValue size.width.toFloat⟩,
        ⟨0, scaled g (sigmaOrRho g) size.height.toFloat⟩)
  | chop | splice => do
      let r ← inv.region
      return (⟨r.x, r.width.getD size.width.toFloat⟩,
        ⟨r.y, (r.height.orElse fun _ => r.width).getD size.height.toFloat⟩)

/-- Where the columns, or the rows, of the result come from. -/
def origins (op : BandOperator) (side start length : Nat) : Origins :=
  match op with
  | border => .bordered side length
  | shave => .shaved side length
  | chop => .chopped side start length
  | splice => .spliced side (min start side) length

/-- The greatest number that is computed on the way. -/
def reach (op : BandOperator) (side start length : Nat) : Nat :=
  match op with
  | border => side + 2 * length
  | shave => 2 * length
  | chop => start + length
  | splice => side + length

/-- Whether an image of which nothing would be left is refused. -/
def keepsSome : BandOperator → Bool
  | shave | chop => true
  | border | splice => false

/-- The color of what is new. -/
def fill (op : BandOperator) (image : Image) : Color :=
  match op with
  | border => image.borderColor
  | shave | chop | splice => image.background

/-- What becomes of an old color: a border is composed under the image. -/
def draw (op : BandOperator) (settings : Settings) (image : Image) : Color → Color :=
  match op with
  | border =>
      Blend.pixel ((settings.image.keyword? Compose "compose").getD .over) image.borderColor
  | shave | chop | splice => id

/-- The operator gives the image whose columns and rows come from where they should, or it refuses
because there are none. -/
def Gives (op : BandOperator) (s : Session Disk) (inv : Invocation) (image : Image)
    (columns rows : Origins) : Prop :=
  if op.keepsSome = true ∧ (columns = [] ∨ rows = []) then
    s.actOnImage .standard op.operator inv image =
      (.error (EngineFault.failed "geometry does not contain image").toFault, s)
  else
    ∃ bitmap,
      s.actOnImage .standard op.operator inv image =
        (.ok (.others [image.withBitmap bitmap]), s) ∧
      image.raster.IsLaidOut columns rows (op.draw s.settings image) (op.fill image) bitmap.raster

/-- The bands in words: lengths are cut to whole pixels. -/
def inWords (across down : Band) : Rect :=
  ⟨across.start, down.start, ImageOperator.lengthAtLeast 0.0 across.length,
    ImageOperator.lengthAtLeast 0.0 down.length⟩

/-- The work that an operator wants done. -/
def transform (op : BandOperator) (settings : Settings) (image : Image) (rect : Rect) : Transform :=
  match op with
  | border =>
      .border ⟨rect.width, rect.height⟩ image.borderColor
        ((settings.image.keyword? Compose "compose").getD .over)
  | shave => .shave ⟨rect.width, rect.height⟩
  | chop => .chop rect
  | splice => .splice rect image.background

theorem operator_eq
    (op : BandOperator)
    (view : View)
    (image : Image)
    (inv : Invocation) :
    op.operator view image inv =
      (op.asked image.size inv).bind fun (across, down) =>
        ImageOperator.work (op.transform view.settings image (inWords across down)) := by
  cases op with
  | border | shave =>
      simp only [operator, ImageOperator.border, ImageOperator.shave, asked]
      cases inv.geometry <;> rfl
  | chop | splice =>
      simp only [operator, ImageOperator.chop, ImageOperator.splice, asked]
      cases inv.region <;> rfl

/-- As long as the numbers that it computes with fit, the pixel engine gives the image that was
asked for, or it refuses because nothing would be left. -/
theorem transform_cases
    {op : BandOperator}
    {image : Image}
    {rect : Rect}
    (settings : Settings)
    (across : op.reach image.raster.width rect.x.toInt.toNat rect.width.toNat < 2 ^ 32)
    (down : op.reach image.raster.height rect.y.toInt.toNat rect.height.toNat < 2 ^ 32) :
    let columns := op.origins image.raster.width rect.x.toInt.toNat rect.width.toNat
    let rows := op.origins image.raster.height rect.y.toInt.toNat rect.height.toNat
    let result := PixelEngine.transform image (op.transform settings image rect)
    (op.keepsSome = true ∧ (columns = [] ∨ rows = [])) ∧ result = PixelEngine.missed ∨
      ¬ (op.keepsSome = true ∧ (columns = [] ∨ rows = [])) ∧
        ∃ bitmap, result = .ok (.replaced (image.withBitmap bitmap)) ∧
          image.raster.IsLaidOut columns rows (op.draw settings image) (op.fill image)
            bitmap.raster := by
  intro columns rows result
  let margin : Size := ⟨rect.width, rect.height⟩
  cases op with
  | border =>
      have bordered := Raster.border_isLaidOut (r := image.raster)
        (show image.raster.width + 2 * margin.width.toNat < 2 ^ 32 from across)
        (show image.raster.height + 2 * margin.height.toNat < 2 ^ 32 from down)
      exact .inr ⟨nofun, _, rfl, bordered _ _⟩
  | shave =>
      have cases := image.shave?_cases (show 2 * margin.width.toNat < 2 ^ 32 from across)
        (show 2 * margin.height.toNat < 2 ^ 32 from down) image.background
      rcases cases with ⟨nothing, refused⟩ | ⟨some, bitmap, shaved, laidOut⟩
      · have missed : result = PixelEngine.missed :=
          (PixelEngine.transform_shave image margin).trans (by rw [refused])
        exact .inl ⟨⟨rfl, nothing⟩, missed⟩
      · have made : result = .ok (.replaced (image.withBitmap bitmap)) :=
          (PixelEngine.transform_shave image margin).trans (by rw [shaved])
        exact .inr ⟨fun none => some none.2, bitmap, made, laidOut⟩
  | chop =>
      rcases Raster.chop?_cases (r := image.raster) across down image.background with
        ⟨nothing, refused⟩ | ⟨some, out, chopped, laidOut⟩
      · have missed : result = PixelEngine.missed :=
          (PixelEngine.transform_chop image rect).trans (by rw [refused])
        exact .inl ⟨⟨rfl, nothing⟩, missed⟩
      · have made : result = .ok (.replaced (image.withRaster out)) :=
          (PixelEngine.transform_chop image rect).trans (by rw [chopped])
        exact .inr ⟨fun none => some none.2, Bitmap.rgba out, made, laidOut⟩
  | splice =>
      have spliced := Raster.splice_isLaidOut (r := image.raster)
        (show image.raster.width + rect.width.toNat < 2 ^ 32 from across)
        (show image.raster.height + rect.height.toNat < 2 ^ 32 from down)
      exact .inr ⟨nofun, _, rfl, spliced _⟩

theorem lt_of_reach_lt
    {op : BandOperator}
    {side start length : Nat}
    (fits : op.reach side start length < 2 ^ 32) :
    length < 2 ^ 32 := by
  cases op <;> simp only [reach] at fits <;> omega

theorem actOnImage_of_asked
    {op : BandOperator}
    {image : Image}
    {inv : Invocation}
    {across down : Band}
    (s : Session Disk)
    (asked : op.asked image.size inv = .ok (across, down)) :
    s.actOnImage .standard op.operator inv image =
      s.performOnImage .standard image
        (.apply (op.transform s.settings image (inWords across down)) id) := by
  rw [Session.actOnImage, operator_eq, asked]
  rfl

theorem gives_of_reach
    {op : BandOperator}
    {s : Session Disk}
    {inv : Invocation}
    {image : Image}
    {rect : Rect}
    (acted : s.actOnImage .standard op.operator inv image =
      s.performOnImage .standard image (.apply (op.transform s.settings image rect) id))
    (across : op.reach image.raster.width rect.x.toInt.toNat rect.width.toNat < 2 ^ 32)
    (down : op.reach image.raster.height rect.y.toInt.toNat rect.height.toNat < 2 ^ 32) :
    op.Gives s inv image (op.origins image.raster.width rect.x.toInt.toNat rect.width.toNat)
      (op.origins image.raster.height rect.y.toInt.toNat rect.height.toNat) := by
  have performed :
      s.performOnImage .standard image (.apply (op.transform s.settings image rect) id) =
        (((PixelEngine.transform image (op.transform s.settings image rect)).mapError
          EngineFault.toFault).map (Session.Product.ofOutcome image id), s) :=
    rfl
  rw [Gives, acted, performed]
  rcases transform_cases s.settings across down with
    ⟨nothing, refused⟩ | ⟨some, bitmap, made, laidOut⟩
  · rw [if_pos nothing, refused]
    rfl
  · rw [if_neg some, made]
    exact ⟨bitmap, rfl, laidOut⟩

/-- `-border`, `-shave`, `-chop` and `-splice` report the fault of their argument.  As long as the
numbers that they compute with fit, they give the image that whole numbers without a bound define,
or report that nothing would be left. -/
theorem exact_of_reach
    (op : BandOperator)
    (s : Session Disk)
    (image : Image)
    (inv : Invocation) :
    (∀ fault, op.asked image.size inv = .error fault →
      s.actOnImage .standard op.operator inv image = (.error fault, s)) ∧
    ∀ {across down : Band} {width height : Nat},
      op.asked image.size inv = .ok (across, down) →
      pixels? across.length = some width →
      pixels? down.length = some height →
      op.reach image.raster.width across.start.toInt.toNat width < 2 ^ 32 →
      op.reach image.raster.height down.start.toInt.toNat height < 2 ^ 32 →
      op.Gives s inv image
        (op.origins image.raster.width across.start.toInt.toNat width)
        (op.origins image.raster.height down.start.toInt.toNat height) := by
  constructor
  · intro fault asked
    rw [Session.actOnImage, operator_eq, asked]
    rfl
  · intro across down width height asked columns rows columnsFit rowsFit
    have width_eq := toNat_lengthAtLeast_zero columns (lt_of_reach_lt columnsFit)
    have height_eq := toNat_lengthAtLeast_zero rows (lt_of_reach_lt rowsFit)
    subst width_eq height_eq
    exact gives_of_reach (actOnImage_of_asked s asked) columnsFit rowsFit

theorem asked_offsetText
    {inv : Invocation}
    {width height : Nat}
    {x y : Int}
    (given : inv.first? = some (offsetText width height x y))
    (size : Size) :
    chop.asked size inv =
      .ok (⟨truncInt64 (signedWhole x), whole width⟩,
        ⟨truncInt64 (signedWhole y), whole height⟩) := by
  rw [asked, Invocation.region_of_ofChars? given (ofChars?_offsetText width height x y)]
  rfl

/-- A band of one column and one of one row are chopped out of an image. -/
theorem chop_second_column :
    let s : Session Disk := { world := {} }
    let image : Image :=
      { bitmap := Bitmap.rgba (Raster.ofFn ⟨3, 2⟩ fun x y =>
          ⟨UInt8.ofNat (80 * x), UInt8.ofNat (200 * y), 7, 90⟩) }
    let inv := Invocation.of "-chop" (some (offsetText 1 1 1 0)) none
    chop.asked image.size inv = .ok (⟨1, whole 1⟩, ⟨0, whole 1⟩) ∧
      pixels? (whole 1) = some 1 ∧
      chop.reach 3 1 1 < 2 ^ 32 ∧ chop.reach 2 0 1 < 2 ^ 32 ∧
      chop.Gives s inv image [some 0, some 2] [some 1] := by
  intro s image inv
  have place : truncInt64 (signedWhole 1) = 1 ∧ truncInt64 (signedWhole 0) = 0 := by
    decide +kernel
  have given : inv.first? = some (offsetText 1 1 1 0) := rfl
  have asked := asked_offsetText given image.size
  rw [place.1, place.2] at asked
  have one : pixels? (whole 1) = some 1 := by
    decide
  have columns : chop.origins image.raster.width (1 : Int64).toInt.toNat 1 = [some 0, some 2] := by
    decide
  have rows : chop.origins image.raster.height (0 : Int64).toInt.toNat 1 = [some 1] := by
    decide
  have gives := (exact_of_reach chop s image inv).2 asked one one (by decide) (by decide)
  rw [columns, rows] at gives
  exact ⟨asked, one, by decide, by decide, gives⟩

/-- A band far to the right of an image is brought back to its left edge, where the first column is
taken away. -/
theorem far_chop_takes_first_column :
    let s : Session Disk := { world := {} }
    let image : Image :=
      { bitmap := Bitmap.rgba (Raster.ofFn ⟨3, 2⟩ fun x y =>
          ⟨UInt8.ofNat (80 * x), UInt8.ofNat (200 * y), 7, 90⟩) }
    let inv := Invocation.of "-chop" (some (offsetText 1 1 4294967296 0)) none
    chop.asked image.size inv = .ok (⟨4294967296, whole 1⟩, ⟨0, whole 1⟩) ∧
      pixels? (whole 1) = some 1 ∧
      chop.origins 3 4294967296 1 = [some 0, some 1, some 2] ∧ chop.origins 2 0 1 = [some 1] ∧
      chop.Gives s inv image [some 1, some 2] [some 1] ∧
      ¬ chop.Gives s inv image [some 0, some 1, some 2] [some 1] := by
  intro s image inv
  have place : truncInt64 (signedWhole 4294967296) = 4294967296 ∧
      truncInt64 (signedWhole 0) = 0 := by
    decide +kernel
  have given : inv.first? = some (offsetText 1 1 4294967296 0) := rfl
  have asked := asked_offsetText given image.size
  rw [place.1, place.2] at asked
  have one : pixels? (whole 1) = some 1 := by
    decide
  have words : inWords ⟨4294967296, whole 1⟩ ⟨0, whole 1⟩ = ⟨4294967296, 0, 1, 1⟩ := by
    decide
  let out := Bitmap.rgba (image.raster.select #[1, 2] #[1])
  have acted : s.actOnImage .standard chop.operator inv image =
      (.ok (.others [image.withBitmap out]), s) := by
    rw [actOnImage_of_asked s asked, words]
    rfl
  refine ⟨asked, one, by decide, by decide, ?_, ?_⟩
  · rw [Gives, if_neg (by decide)]
    exact ⟨out, acted, Raster.select_isLaidOut (show #[1, 2].size < 2 ^ 32 by decide)
      (show #[1].size < 2 ^ 32 by decide) image.background⟩
  · rw [Gives, if_neg (by decide)]
    rintro ⟨bitmap, acted', laidOut⟩
    have same : out = bitmap := by
      have outcome := congrArg Prod.fst (acted.symm.trans acted')
      injection outcome with product
      injection product with images
      exact congrArg Image.bitmap (List.cons.inj images).1
    have width := laidOut.width
    rw [← same] at width
    revert width
    decide

end BandOperator
end Darkroom
