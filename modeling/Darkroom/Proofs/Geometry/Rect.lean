import Darkroom.Geometry.Rect
import Mathlib

/-!
# The pixels of rectangles

A rectangle is the set of its pixels.  Clipped to an image it keeps the pixels which the image has,
and nothing is left exactly when they have none in common; a far edge beyond the range of the
coordinates wraps around, but then the corner is already outside of every image.
-/

namespace Darkroom

/-! ## Coordinates -/

@[simp] theorem toInt_wide
    (n : UInt32) :
    (wide n).toInt = n.toNat := by
  have less := n.toNat_lt
  have bits : (wide n).toInt = (n.toNat : Int).bmod (2 ^ 64) := by
    change n.toUInt64.toBitVec.toInt = _
    rw [BitVec.toInt_eq_toNat_bmod]
    rfl
  rw [bits, Int.bmod_def]
  omega

theorem toNat_narrow
    {n : Int64}
    (nonnegative : 0 ≤ n.toInt)
    (less : n.toInt < 2 ^ 32) :
    ((narrow n).toNat : Int) = n.toInt := by
  have word : n.toInt = (n.toUInt64.toNat : Int).bmod (2 ^ 64) :=
    BitVec.toInt_eq_toNat_bmod n.toBitVec
  have cut : (narrow n).toNat = n.toUInt64.toNat % 2 ^ 32 := UInt64.toNat_toUInt32 _
  have bound := n.toUInt64.toNat_lt
  rw [Int.bmod_def] at word
  omega

theorem toInt_max
    (a b : Int64) :
    (max a b).toInt = max a.toInt b.toInt := by
  rw [Int.max_def]
  change (if a ≤ b then b else a).toInt = _
  simp only [Int64.le_iff_toInt_le]
  split <;> rfl

theorem toInt_min
    (a b : Int64) :
    (min a b).toInt = min a.toInt b.toInt := by
  rw [Int.min_def]
  change (if a ≤ b then a else b).toInt = _
  simp only [Int64.le_iff_toInt_le]
  split <;> rfl

/-- The end of a stretch is where it should be, or it has wrapped around and is negative. -/
theorem toInt_add_wide
    (start : Int64)
    (length : UInt32) :
    (start + wide length).toInt = start.toInt + length.toNat ∨
      2 ^ 63 - 2 ^ 32 ≤ start.toInt ∧ (start + wide length).toInt < 0 := by
  have low := start.le_toInt
  have high := start.toInt_lt
  have less := length.toNat_lt
  rw [Int64.toInt_add, toInt_wide, Int.bmod_def]
  omega

/-- The places of a side that a stretch has in common with it. -/
theorem mem_common_iff
    (start : Int64)
    (length side : UInt32)
    (i : Nat) :
    (max start 0).toInt ≤ i ∧ i < (min (start + wide length) (wide side)).toInt ↔
      i < side.toNat ∧ start.toInt ≤ i ∧ i < start.toInt + length.toNat := by
  have less := side.toNat_lt
  rw [toInt_max, toInt_min, toInt_wide, Int64.toInt_zero]
  rcases toInt_add_wide start length with exact | ⟨far, negative⟩ <;> omega

/-- What a stretch has in common with a side lies on the side. -/
theorem common_on_side
    (start : Int64)
    (length side : UInt32) :
    0 ≤ (max start 0).toInt ∧ (min (start + wide length) (wide side)).toInt ≤ side.toNat := by
  constructor
  · rw [toInt_max, Int64.toInt_zero]
    omega
  · rw [toInt_min, toInt_wide]
    omega

section Common

variable {start : Int64} {length side : UInt32}
  (nonempty : (max start 0).toInt < (min (start + wide length) (wide side)).toInt)

include nonempty

theorem toInt_sub_common :
    (min (start + wide length) (wide side) - max start 0).toInt =
      (min (start + wide length) (wide side)).toInt - (max start 0).toInt := by
  have less := side.toNat_lt
  obtain ⟨first, last⟩ := common_on_side start length side
  rw [Int64.toInt_sub, Int.bmod_def]
  omega

/-- The length of the common part is a word. -/
theorem toNat_narrow_common :
    ((narrow (min (start + wide length) (wide side) - max start 0)).toNat : Int) =
      (min (start + wide length) (wide side) - max start 0).toInt := by
  have less := side.toNat_lt
  obtain ⟨first, last⟩ := common_on_side start length side
  have difference := toInt_sub_common nonempty
  exact toNat_narrow (by omega) (by omega)

end Common

/-! ## Pixels -/

/-- The pixels of an image. -/
def Size.Contains (image : Size) (x y : Nat) : Prop :=
  x < image.width.toNat ∧ y < image.height.toNat

instance (image : Size) (x y : Nat) : Decidable (image.Contains x y) :=
  inferInstanceAs (Decidable (_ ∧ _))

namespace Rect

/-- The pixels of a rectangle. -/
def Contains (r : Rect) (x y : Nat) : Prop :=
  (r.x.toInt ≤ x ∧ x < r.x.toInt + r.width.toNat) ∧
    r.y.toInt ≤ y ∧ y < r.y.toInt + r.height.toNat

instance (r : Rect) (x y : Nat) : Decidable (r.Contains x y) :=
  inferInstanceAs (Decidable ((_ ∧ _) ∧ _ ∧ _))

/-- A rectangle that has pixels, all of them pixels of an image. -/
structure IsPart (r : Rect) (image : Size) : Prop where
  /-- It has columns. -/
  wide : 0 < r.width.toNat
  /-- It has rows. -/
  tall : 0 < r.height.toNat
  /-- It does not begin before the first column. -/
  left : 0 ≤ r.x.toInt
  /-- It does not begin above the first row. -/
  top : 0 ≤ r.y.toInt
  /-- It does not end behind the last column. -/
  right : r.x.toInt + r.width.toNat ≤ image.width.toNat
  /-- It does not end below the last row. -/
  bottom : r.y.toInt + r.height.toNat ≤ image.height.toNat

variable {r part : Rect} {image : Size}

theorem clipTo_eq_some_iff :
    r.clipTo image = some part ↔
      ((max r.x 0).toInt < (min (r.x + wide r.width) (wide image.width)).toInt ∧
        (max r.y 0).toInt < (min (r.y + wide r.height) (wide image.height)).toInt) ∧
      part = ⟨max r.x 0, max r.y 0,
        narrow (min (r.x + wide r.width) (wide image.width) - max r.x 0),
        narrow (min (r.y + wide r.height) (wide image.height) - max r.y 0)⟩ := by
  unfold clipTo
  dsimp only
  split
  · next empty =>
    simp only [Int64.le_iff_toInt_le] at empty
    refine ⟨nofun, fun ⟨nonempty, _⟩ => ?_⟩
    omega
  · next nonempty =>
    simp only [Int64.le_iff_toInt_le, not_or, not_le] at nonempty
    rw [Option.some_inj]
    exact ⟨fun same => ⟨nonempty, same.symm⟩, fun ⟨_, same⟩ => same.symm⟩

/-- What is left of a clipped rectangle: the pixels that it has in common with the image. -/
theorem clipTo_eq_some
    (clipped : r.clipTo image = some part) :
    part.IsPart image ∧ ∀ x y, part.Contains x y ↔ image.Contains x y ∧ r.Contains x y := by
  obtain ⟨⟨across, down⟩, rfl⟩ := clipTo_eq_some_iff.mp clipped
  obtain ⟨left, right⟩ := common_on_side r.x r.width image.width
  obtain ⟨top, bottom⟩ := common_on_side r.y r.height image.height
  have width := (toNat_narrow_common across).trans (toInt_sub_common across)
  have height := (toNat_narrow_common down).trans (toInt_sub_common down)
  refine ⟨⟨?_, ?_, left, top, ?_, ?_⟩, fun x y => ?_⟩
  · dsimp only
    omega
  · dsimp only
    omega
  · dsimp only
    omega
  · dsimp only
    omega
  · unfold Contains Size.Contains
    dsimp only
    rw [width, height, add_sub_cancel, add_sub_cancel, mem_common_iff, mem_common_iff]
    tauto

/-- Nothing is left of a rectangle that has no pixel in common with the image. -/
theorem clipTo_eq_none
    (clipped : r.clipTo image = none)
    (x y : Nat) :
    ¬ (image.Contains x y ∧ r.Contains x y) := by
  rintro ⟨⟨across, down⟩, horizontal, vertical⟩
  have column := (mem_common_iff r.x r.width image.width x).mpr ⟨across, horizontal⟩
  have row := (mem_common_iff r.y r.height image.height y).mpr ⟨down, vertical⟩
  have found : r.clipTo image = some _ :=
    clipTo_eq_some_iff.mpr ⟨⟨by omega, by omega⟩, rfl⟩
  rw [clipped] at found
  cases found

/-! ## Places of the plane -/

/-- The places of the plane that a rectangle covers.  Its far edges may lie beyond the range of the
coordinates. -/
def Covers (r : Rect) (x y : Int) : Prop :=
  (r.x.toInt ≤ x ∧ x < r.x.toInt + r.width.toNat) ∧
    r.y.toInt ≤ y ∧ y < r.y.toInt + r.height.toNat

instance (r : Rect) (x y : Int) : Decidable (r.Covers x y) :=
  inferInstanceAs (Decidable ((_ ∧ _) ∧ _ ∧ _))

theorem exists_clipTo_iff
    (r : Rect)
    (image : Size) :
    (∃ part, r.clipTo image = some part) ↔ ∃ x y, image.Contains x y ∧ r.Contains x y := by
  constructor
  · rintro ⟨part, clipped⟩
    obtain ⟨isPart, common⟩ := clipTo_eq_some clipped
    obtain ⟨wide, tall, left, top, -, -⟩ := isPart
    have corner : part.Contains part.x.toInt.toNat part.y.toInt.toNat := by
      unfold Contains
      omega
    exact ⟨_, _, (common _ _).mp corner⟩
  · rintro ⟨x, y, inCommon⟩
    cases clipped : r.clipTo image with
    | none => exact absurd inCommon (clipTo_eq_none clipped x y)
    | some part => exact ⟨part, rfl⟩

/-- A part of an image covers no place outside of the image. -/
theorem IsPart.covers_iff
    (isPart : part.IsPart image)
    (common : ∀ x y, part.Contains x y ↔ image.Contains x y ∧ r.Contains x y)
    (x y : Int) :
    part.Covers x y ↔
      ((0 ≤ x ∧ x < image.width.toNat) ∧ 0 ≤ y ∧ y < image.height.toNat) ∧ r.Covers x y := by
  obtain ⟨-, -, left, top, right, bottom⟩ := isPart
  by_cases nonnegative : 0 ≤ x ∧ 0 ≤ y
  · obtain ⟨m, rfl⟩ := Int.eq_ofNat_of_zero_le nonnegative.1
    obtain ⟨n, rfl⟩ := Int.eq_ofNat_of_zero_le nonnegative.2
    have places : part.Covers m n ↔ image.Contains m n ∧ r.Covers m n := common m n
    rw [places]
    refine and_congr_left' ?_
    unfold Size.Contains
    omega
  · unfold Covers
    omega

/-- A clipped rectangle is left just when the rectangle has a pixel in common with the image, and it
covers their common places only.  Its lengths are words of 64 bits that are cut down to 32 without
loss. -/
theorem clipTo_is_exact
    (r : Rect)
    (image : Size) :
    ((∃ part, r.clipTo image = some part) ↔ ∃ x y, image.Contains x y ∧ r.Contains x y) ∧
      ∀ part, r.clipTo image = some part →
        (∀ x y, part.Covers x y ↔
          ((0 ≤ x ∧ x < image.width.toNat) ∧ 0 ≤ y ∧ y < image.height.toNat) ∧ r.Covers x y) ∧
        (part.width.toNat : Int) =
          (min (r.x + wide r.width) (wide image.width) - max r.x 0).toInt ∧
        (part.height.toNat : Int) =
          (min (r.y + wide r.height) (wide image.height) - max r.y 0).toInt := by
  refine ⟨exists_clipTo_iff r image, fun part clipped => ?_⟩
  obtain ⟨isPart, common⟩ := clipTo_eq_some clipped
  refine ⟨isPart.covers_iff common, ?_⟩
  obtain ⟨⟨across, down⟩, rfl⟩ := clipTo_eq_some_iff.mp clipped
  exact ⟨toNat_narrow_common across, toNat_narrow_common down⟩

/-- A rectangle of the greatest size is cut on all sides, and one whose right edge lies beyond the
range of the coordinates leaves nothing. -/
theorem clipTo_greatest :
    let r : Rect := ⟨-5, 1, 4294967295, 4294967295⟩
    let image : Size := ⟨3, 2⟩
    let part : Rect := ⟨0, 1, 3, 1⟩
    r.clipTo image = some part ∧
      (∀ x y, part.Covers x y ↔
        ((0 ≤ x ∧ x < image.width.toNat) ∧ 0 ≤ y ∧ y < image.height.toNat) ∧ r.Covers x y) ∧
      (part.width.toNat : Int) =
        (min (r.x + wide r.width) (wide image.width) - max r.x 0).toInt ∧
      (part.height.toNat : Int) =
        (min (r.y + wide r.height) (wide image.height) - max r.y 0).toInt ∧
      { r with x := Int64.maxValue }.clipTo image = none := by
  intro r image part
  have clipped : r.clipTo image = some part := by decide
  obtain ⟨places, width, height⟩ := (clipTo_is_exact r image).2 part clipped
  exact ⟨clipped, places, width, height, by decide⟩

end Rect
end Darkroom
