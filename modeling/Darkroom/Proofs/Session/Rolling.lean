import Darkroom.Pixels.Shape
import Darkroom.Proofs.Geometry.Page
import Darkroom.Proofs.Pixels.Raster
import Darkroom.Proofs.Session.Redrawing
import Mathlib

/-!
# Rolled images

Rolling a raster by whole offsets is an action of the pairs of integers: offsets add up, the
opposite offsets roll back, and multiples of the sides do nothing.  A roll by words does the same as
long as the difference of a place and an offset is not out of range.

Rolls of an image by offsets within range add up as the offsets do, and so do the options that roll
all images by the offsets which their texts write.
-/

namespace Darkroom

namespace Raster

variable {r : Raster} {x y : Nat}

/-! ## One axis -/

/-- The place on a side that is rolled to a place. -/
def rollSource (side : Nat) (offset : Int) (place : Nat) : Nat :=
  ((place - offset) % side).toNat

theorem rollSource_lt
    {side place : Nat}
    (offset : Int)
    (inside : place < side) :
    rollSource side offset place < side := by
  have nonneg := Int.emod_nonneg (place - offset) (show (side : Int) ≠ 0 by omega)
  have less := Int.emod_lt_of_pos (place - offset) (show (0 : Int) < side by omega)
  rw [rollSource]
  omega

theorem rollSource_rollSource
    {side place : Nat}
    (a b : Int)
    (inside : place < side) :
    rollSource side a (rollSource side b place) = rollSource side (a + b) place := by
  have nonneg := Int.emod_nonneg (place - b) (show (side : Int) ≠ 0 by omega)
  rw [rollSource, rollSource, rollSource, Int.toNat_of_nonneg nonneg, Int.emod_sub_emod, sub_sub,
    add_comm b a]

/-- An offset by whole sides does nothing. -/
theorem rollSource_of_dvd
    {side place : Nat}
    {offset : Int}
    (whole : (side : Int) ∣ offset)
    (inside : place < side) :
    rollSource side offset place = place := by
  obtain ⟨rounds, rfl⟩ := whole
  rw [rollSource, Int.sub_mul_emod_self_left,
    Int.emod_eq_of_lt (Int.natCast_nonneg place) (by omega), Int.toNat_natCast]

/-- The places of a side, each sent on by an offset. -/
def rollPerm (side : Nat) (offset : Int) : Equiv.Perm (Fin side) where
  toFun place := ⟨rollSource side (-offset) place, rollSource_lt _ place.isLt⟩
  invFun place := ⟨rollSource side offset place, rollSource_lt _ place.isLt⟩
  left_inv place := by
    refine Fin.ext ?_
    dsimp only
    rw [rollSource_rollSource _ _ place.isLt, add_neg_cancel]
    exact rollSource_of_dvd (dvd_zero _) place.isLt
  right_inv place := by
    refine Fin.ext ?_
    dsimp only
    rw [rollSource_rollSource _ _ place.isLt, neg_add_cancel]
    exact rollSource_of_dvd (dvd_zero _) place.isLt

/-! ## Both axes -/

/-- The raster rolled by whole offsets. -/
def rolled (r : Raster) (x y : Int) : Raster :=
  ofFn r.size fun column row =>
    r.get (rollSource r.width x column) (rollSource r.height y row)

theorem get_rolled
    (a b : Int)
    (across : x < r.width)
    (down : y < r.height) :
    (r.rolled a b).get x y = r.get (rollSource r.width a x) (rollSource r.height b y) :=
  get_ofFn across down

/-- Offsets add up. -/
theorem rolled_rolled
    (r : Raster)
    (a b c d : Int) :
    (r.rolled a b).rolled c d = r.rolled (a + c) (b + d) := by
  refine ext_get rfl fun x y inside => ?_
  obtain ⟨across, down⟩ : x < r.width ∧ y < r.height := inside
  calc ((r.rolled a b).rolled c d).get x y
      = (r.rolled a b).get (rollSource r.width c x) (rollSource r.height d y) :=
        get_rolled (r := r.rolled a b) c d across down
    _ = r.get (rollSource r.width a (rollSource r.width c x))
          (rollSource r.height b (rollSource r.height d y)) :=
        get_rolled a b (rollSource_lt c across) (rollSource_lt d down)
    _ = r.get (rollSource r.width (a + c) x) (rollSource r.height (b + d) y) := by
        rw [rollSource_rollSource a c across, rollSource_rollSource b d down]
    _ = (r.rolled (a + c) (b + d)).get x y := (get_rolled _ _ across down).symm

/-- Offsets by whole sides do nothing. -/
theorem rolled_of_dvd
    {a b : Int}
    (wholeWidths : (r.width : Int) ∣ a)
    (wholeHeights : (r.height : Int) ∣ b) :
    r.rolled a b = r := by
  refine ext_get rfl fun x y inside => ?_
  obtain ⟨across, down⟩ : x < r.width ∧ y < r.height := inside
  rw [get_rolled a b across down, rollSource_of_dvd wholeWidths across,
    rollSource_of_dvd wholeHeights down]

/-- A raster of the same size with each pixel at another place, none lost and none repeated. -/
def Rearranged (r s : Raster) : Prop :=
  s.size = r.size ∧
    ∃ places : Equiv.Perm (Fin r.width × Fin r.height),
      ∀ place, s.get (places place).1 (places place).2 = r.get place.1 place.2

theorem rearranged_rolled
    (r : Raster)
    (a b : Int) :
    r.Rearranged (r.rolled a b) := by
  refine ⟨rfl, (rollPerm r.width a).prodCongr (rollPerm r.height b), fun place => ?_⟩
  obtain ⟨column, row⟩ := place
  have back : (rollPerm r.width a).symm (rollPerm r.width a column) = column :=
    (rollPerm r.width a).symm_apply_apply column
  have back' : (rollPerm r.height b).symm (rollPerm r.height b row) = row :=
    (rollPerm r.height b).symm_apply_apply row
  calc (r.rolled a b).get (rollPerm r.width a column) (rollPerm r.height b row)
      = r.get ((rollPerm r.width a).symm (rollPerm r.width a column))
          ((rollPerm r.height b).symm (rollPerm r.height b row)) :=
        get_rolled a b (Fin.isLt _) (Fin.isLt _)
    _ = r.get column row := by rw [back, back']

/-! ## Rolls by words -/

/-- A roll by words is the roll by whole offsets when no difference is out of range. -/
theorem roll_eq_rolled
    {a b : Int64}
    (smallX : |a.toInt| ≤ 2 ^ 62)
    (smallY : |b.toInt| ≤ 2 ^ 62) :
    r.roll a b = r.rolled a.toInt b.toInt := by
  have source {place : Nat} {offset : Int64} {side : UInt32} (inside : place < side.toNat)
      (small : |offset.toInt| ≤ 2 ^ 62) :
      ((Int64.ofNat place - offset).toInt % (side.toNat : Int)).toNat =
        rollSource side.toNat offset.toInt place := by
    have less := side.toNat_lt
    obtain ⟨low, high⟩ := abs_le.mp small
    have difference : (Int64.ofNat place - offset).toInt = place - offset.toInt := by
      rw [Int64.toInt_sub, Int64.toInt_ofNat_of_lt (by omega), Int.bmod_def]
      omega
    rw [difference]
    rfl
  refine ext_get rfl fun x y inside => ?_
  obtain ⟨across, down⟩ : x < r.width ∧ y < r.height := inside
  rw [get_rolled _ _ across down, width, height, ← source across smallX, ← source down smallY]
  exact get_ofFn across down

end Raster

open Decimal Binary

/-! ## Offsets in texts -/

/-- The text of a region with these offsets. -/
def RollsBy (text : String) (x y : Int) : Prop :=
  ∃ r, Region.parse text = .ok r ∧ r.x.toInt = x ∧ r.y.toInt = y

/-- The text of two offsets. -/
def rollText (x y : Int) : String :=
  Integer.withSign x ++ Integer.withSign y

theorem ofChars?_rollText
    (x y : Int) :
    Region.ofChars? (rollText x y).toList =
      some
        { x? := some (truncInt64 (signedWhole x)), y? := some (truncInt64 (signedWhole y)) } := by
  have alphabet (n : Int) : ∀ c ∈ (Integer.withSign n).toList, IsNumberChar c := by
    rw [toList_withSign, List.forall_mem_cons]
    refine ⟨?_, isNumberChar_of_mem_toDigits n.natAbs⟩
    rcases signOf_eq n with sign | sign <;> rw [sign] <;> decide
  have ends : EndsNumber (Integer.withSign y).toList := by
    rw [toList_withSign]
    exact .inr (signOf_eq y)
  have readX := takeOffset_withSign x ends
  have readY := takeOffset_withSign y (show EndsNumber [] from trivial)
  rw [List.append_nil] at readY
  rw [rollText, String.toList_append, Region.ofChars?,
    split_of_numberChars (List.forall_mem_append.mpr ⟨alphabet x, alphabet y⟩)]
  rw [toList_withSign x, List.cons_append] at readX ⊢
  -- A sign is neither part of a width nor the mark before a height.
  have noSize (rest : List Char) : Geometry.takeOptional false (signOf x :: rest) =
      (none, signOf x :: rest) := by
    rcases signOf_eq x with sign | sign <;> rw [sign] <;> rfl
  have noMark : ¬ (signOf x = 'x' ∨ signOf x = 'X') := by
    rcases signOf_eq x with sign | sign <;> rw [sign] <;> decide
  simp only [noSize, if_neg noMark, readX, readY, Option.bind_eq_bind, Option.bind_some]
  rfl

/-- Exact offsets are the ones that their text rolls by. -/
theorem rollsBy_rollText
    {x y : Int64}
    (readableX : IsReadableSigned x)
    (readableY : IsReadableSigned y) :
    RollsBy (rollText x.toInt y.toInt) x.toInt y.toInt := by
  refine ⟨_, by rw [Region.parse, ofChars?_rollText], ?_, ?_⟩
  · exact congrArg Int64.toInt (truncInt64_signedWhole readableX)
  · exact congrArg Int64.toInt (truncInt64_signedWhole readableY)

namespace Session

/-! ## Steps -/

theorem redraws_roll
    {settings : Settings}
    {text : String}
    {x y : Int}
    (rolls : RollsBy text x y)
    (smallX : |x| ≤ 2 ^ 62)
    (smallY : |y| ≤ 2 ^ 62) :
    Redraws settings (fun b => .rgba (b.raster.rolled x y))
      (.apply (Catalog.one "roll" .image) "-roll" [text]) := by
  obtain ⟨r, parsed, rfl, rfl⟩ := rolls
  have named : ImageOperator.named? (Invocation.of "-roll" (some text) none).name =
      some .roll := rfl
  refine redraws_of_transform rfl named (show "roll" ∉ _ by decide) fun s _ image => ?_
  have read : (Invocation.of "-roll" (some text) none).region = .ok r :=
    Invocation.region_of_parse rfl parsed
  have decided : ImageOperator.roll (s.viewDuring default) (s.given image)
      (Invocation.of "-roll" (some text) none) = .ok (.apply (.roll r.x r.y) id) := by
    change ((Invocation.of "-roll" (some text) none).region).bind _ = _
    rw [read]
    rfl
  refine ⟨_, _, decided, rfl, ?_⟩
  rw [← Raster.roll_eq_rolled smallX smallY]
  rfl

/-! ## Rolled images -/

/-- The image with its pixels rolled. -/
def rollImage (image : Image) (x y : Int64) : Image :=
  PixelEngine.redrawn (fun r => r.roll x y) image

/-- An offset that can be added to another and to a place. -/
def IsSmall (x : Int) : Prop :=
  |x| ≤ 2 ^ 61

instance (x : Int) : Decidable (IsSmall x) :=
  inferInstanceAs (Decidable (|x| ≤ 2 ^ 61))

theorem IsSmall.le
    {x : Int}
    (small : IsSmall x) :
    |x| ≤ 2 ^ 62 :=
  small.trans (by decide)

theorem IsSmall.add_le
    {x y : Int}
    (smallX : IsSmall x)
    (smallY : IsSmall y) :
    |x + y| ≤ 2 ^ 62 := by
  have together := (abs_add_le x y).trans (add_le_add smallX smallY)
  omega

theorem IsSmall.toInt_add
    {a b : Int64}
    (smallA : IsSmall a.toInt)
    (smallB : IsSmall b.toInt) :
    (a + b).toInt = a.toInt + b.toInt := by
  obtain ⟨low, high⟩ := abs_le.mp (smallA.add_le smallB)
  rw [Int64.toInt_add, Int.bmod_def]
  omega

theorem IsSmall.toInt_neg
    {a : Int64}
    (small : IsSmall a.toInt) :
    (-a).toInt = -a.toInt := by
  obtain ⟨low, high⟩ := abs_le.mp small.le
  rw [Int64.toInt_neg, Int.bmod_def]
  omega

theorem IsSmall.neg
    {x : Int}
    (small : IsSmall x) :
    IsSmall (-x) := by
  rw [IsSmall, abs_neg]
  exact small

/-- Rolls of an image act as their offsets do. -/
structure RollsAsGroup (image : Image) : Prop where
  /-- The engine rolls the image by all offsets. -/
  engine : ∀ x y, PixelEngine.transform image (.roll x y) = .ok (.mutated (rollImage image x y))
  /-- Offsets add up. -/
  add : ∀ a b c d : Int64, IsSmall a.toInt → IsSmall b.toInt → IsSmall c.toInt →
    IsSmall d.toInt →
    (rollImage (rollImage image a b) c d).raster = (rollImage image (a + c) (b + d)).raster
  /-- The opposite offsets roll back. -/
  back : ∀ a b : Int64, IsSmall a.toInt → IsSmall b.toInt →
    (rollImage (rollImage image a b) (-a) (-b)).raster = image.raster
  /-- Multiples of the sides do nothing. -/
  round : ∀ a b : Int64, IsSmall a.toInt → IsSmall b.toInt →
    (image.raster.width : Int) ∣ a.toInt → (image.raster.height : Int) ∣ b.toInt →
    (rollImage image a b).raster = image.raster
  /-- No pixel is lost or repeated. -/
  rearranged : ∀ a b : Int64, IsSmall a.toInt → IsSmall b.toInt →
    image.raster.Rearranged (rollImage image a b).raster

theorem rollsAsGroup
    (image : Image) :
    RollsAsGroup image := by
  have rolled (image : Image) {a b : Int64} (smallA : |a.toInt| ≤ 2 ^ 62)
      (smallB : |b.toInt| ≤ 2 ^ 62) :
      (rollImage image a b).raster = image.raster.rolled a.toInt b.toInt :=
    Raster.roll_eq_rolled smallA smallB
  constructor
  case engine => exact fun x y => rfl
  case add =>
    intro a b c d smallA smallB smallC smallD
    have sumX := smallA.toInt_add smallC
    have sumY := smallB.toInt_add smallD
    have smallX : |(a + c).toInt| ≤ 2 ^ 62 := sumX ▸ smallA.add_le smallC
    have smallY : |(b + d).toInt| ≤ 2 ^ 62 := sumY ▸ smallB.add_le smallD
    rw [rolled _ smallC.le smallD.le, rolled _ smallA.le smallB.le, rolled _ smallX smallY,
      Raster.rolled_rolled, sumX, sumY]
  case back =>
    intro a b smallA smallB
    have smallX : |(-a).toInt| ≤ 2 ^ 62 := smallA.toInt_neg ▸ smallA.neg.le
    have smallY : |(-b).toInt| ≤ 2 ^ 62 := smallB.toInt_neg ▸ smallB.neg.le
    rw [rolled _ smallX smallY, rolled _ smallA.le smallB.le, Raster.rolled_rolled,
      smallA.toInt_neg, smallB.toInt_neg, add_neg_cancel, add_neg_cancel]
    exact Raster.rolled_of_dvd (dvd_zero _) (dvd_zero _)
  case round =>
    intro a b smallA smallB wholeWidths wholeHeights
    rw [rolled _ smallA.le smallB.le]
    exact Raster.rolled_of_dvd wholeWidths wholeHeights
  case rearranged =>
    intro a b smallA smallB
    rw [rolled _ smallA.le smallB.le]
    exact image.raster.rearranged_rolled _ _

/-! ## Command lines -/

section Rolls

variable {s : Session Disk} (whole : s.images.Whole)

include whole

/-- One option rolls all images by its offsets. -/
theorem rastersAfter_roll
    {text : String}
    {x y : Int}
    (rolls : RollsBy text x y)
    (smallX : |x| ≤ 2 ^ 62)
    (smallY : |y| ≤ 2 ^ 62) :
    s.rastersAfter ["-roll", text] = (s.images.toList.map Image.raster).map (·.rolled x y) := by
  rw [rastersAfter_of_allRedraw (.one rfl (redraws_roll rolls smallX smallY)) whole, List.map_map]
  rfl

/-- Two options roll all images by the sums of their offsets. -/
theorem rastersAfter_roll_roll
    {first second : String}
    {a b c d : Int}
    (rolls : RollsBy first a b)
    (rollsOn : RollsBy second c d)
    (smallA : IsSmall a)
    (smallB : IsSmall b)
    (smallC : IsSmall c)
    (smallD : IsSmall d) :
    s.rastersAfter ["-roll", first, "-roll", second] =
      (s.images.toList.map Image.raster).map (·.rolled (a + c) (b + d)) := by
  rw [rastersAfter_of_allRedraw (.cons rfl (redraws_roll rolls smallA.le smallB.le)
    (.one rfl (redraws_roll rollsOn smallC.le smallD.le))) whole, List.map_map]
  exact List.map_congr_left fun image _ => image.raster.rolled_rolled a b c d

end Rolls

/-- Rolling is an action of the pairs of offsets on the pixels of every image: offsets add up, the
opposite offsets roll back, multiples of the sides do nothing, and no pixel is lost or repeated.  So
it is with the options that roll all images of a session by what their texts write. -/
theorem rolling_is_group_action
    {s : Session Disk}
    (whole : s.images.Whole) :
    let rasters := s.images.toList.map Image.raster
    (∀ image, RollsAsGroup image) ∧
      (∀ first second both a b c d, RollsBy first a b → RollsBy second c d →
        RollsBy both (a + c) (b + d) → IsSmall a → IsSmall b → IsSmall c → IsSmall d →
        s.rastersAfter ["-roll", first, "-roll", second] = s.rastersAfter ["-roll", both]) ∧
      (∀ first second a b, RollsBy first a b → RollsBy second (-a) (-b) → IsSmall a → IsSmall b →
        s.rastersAfter ["-roll", first, "-roll", second] = rasters) ∧
      (∀ text a b, RollsBy text a b → IsSmall a → IsSmall b →
        (∀ r ∈ rasters, (r.width : Int) ∣ a ∧ (r.height : Int) ∣ b) →
        s.rastersAfter ["-roll", text] = rasters) ∧
      ∀ text a b, RollsBy text a b → IsSmall a → IsSmall b →
        List.Forall₂ Raster.Rearranged rasters (s.rastersAfter ["-roll", text]) := by
  intro rasters
  refine ⟨rollsAsGroup, ?add, ?back, ?round, ?rearranged⟩
  case add =>
    intro first second both a b c d rolls rollsOn together smallA smallB smallC smallD
    rw [rastersAfter_roll_roll whole rolls rollsOn smallA smallB smallC smallD,
      rastersAfter_roll whole together (smallA.add_le smallC) (smallB.add_le smallD)]
  case back =>
    intro first second a b rolls opposite smallA smallB
    rw [rastersAfter_roll_roll whole rolls opposite smallA smallB smallA.neg smallB.neg,
      add_neg_cancel, add_neg_cancel]
    exact (List.map_congr_left fun r _ => Raster.rolled_of_dvd (dvd_zero _) (dvd_zero _)).trans
      (List.map_id _)
  case round =>
    intro text a b rolls smallA smallB multiples
    rw [rastersAfter_roll whole rolls smallA.le smallB.le]
    exact (List.map_congr_left fun r member =>
      Raster.rolled_of_dvd (multiples r member).1 (multiples r member).2).trans (List.map_id _)
  case rearranged =>
    intro text a b rolls smallA smallB
    rw [rastersAfter_roll whole rolls smallA.le smallB.le, List.forall₂_map_right_iff]
    exact List.forall₂_same.mpr fun r _ => r.rearranged_rolled a b

/-- A small image rolled far, and back again. -/
theorem image_rolled_and_back :
    let dots : Image :=
      { bitmap := Bitmap.of .rgb8 (Raster.ofFn ⟨3, 2⟩ fun x y => ⟨.ofNat x, .ofNat y, 7, 255⟩) }
    let s : Session Disk := { images := .ofList [dots], world := ⟨[]⟩ }
    s.images.Whole ∧ RollsBy "+1000000001-5" 1000000001 (-5) ∧
      RollsBy "-1000000001+5" (-1000000001) 5 ∧
      s.rastersAfter ["-roll", "+1000000001-5", "-roll", "-1000000001+5"] = [dots.raster] := by
  intro dots s
  have whole : s.images.Whole := .ofList _
  have rolls : RollsBy "+1000000001-5" 1000000001 (-5) :=
    (show rollText 1000000001 (-5) = "+1000000001-5" by decide) ▸
      rollsBy_rollText (x := 1000000001) (y := -5) (.inl (isExact_of_le (by decide)))
        (.inl (isExact_of_le (by decide)))
  have opposite : RollsBy "-1000000001+5" (-1000000001) 5 :=
    (show rollText (-1000000001) 5 = "-1000000001+5" by decide) ▸
      rollsBy_rollText (x := -1000000001) (y := 5) (.inl (isExact_of_le (by decide)))
        (.inl (isExact_of_le (by decide)))
  obtain ⟨-, -, back, -⟩ := rolling_is_group_action whole
  exact ⟨whole, rolls, opposite, back _ _ _ _ rolls opposite (by decide) (by decide)⟩

end Session

end Darkroom
