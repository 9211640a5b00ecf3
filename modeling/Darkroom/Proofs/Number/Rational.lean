import Darkroom.Number.Scalar
import Darkroom.Proofs.Number.Nearest

/-!
# Exact scalars

Over the rationals the operations of scalars are those of ordered fields, and what is rounded to a
whole number or a byte becomes the nearest one.
-/

namespace Darkroom
namespace Rational

open Binary (IsNearest)

@[simp] theorem whole_eq (n : Nat) : (Scalar.whole n : Rat) = n :=
  rfl

@[simp] theorem less_eq (x y : Rat) : Scalar.less x y = decide (x < y) :=
  rfl

@[simp] theorem same_eq (x y : Rat) : Scalar.same x y = decide (x = y) :=
  rfl

@[simp] theorem tiny_eq : (Scalar.tiny : Rat) = 1 / 2 ^ 52 :=
  rfl

@[simp] theorem magnitude_eq (x : Rat) : Scalar.magnitude x = |x| := by
  change (if x < 0 then -x else x) = |x|
  split
  · next negative => rw [abs_of_neg negative]
  · next nonneg => rw [abs_of_nonneg (not_lt.mp nonneg)]

@[simp] theorem least_eq (x y : Rat) : Scalar.least x y = min x y := by
  change (if y < x then y else x) = min x y
  split
  · next less => rw [min_eq_right less.le]
  · next atLeast => rw [min_eq_left (not_lt.mp atLeast)]

@[simp] theorem greatest_eq (x y : Rat) : Scalar.greatest x y = max x y := by
  change (if x < y then y else x) = max x y
  split
  · next less => rw [max_eq_right less.le]
  · next atLeast => rw [max_eq_left (not_lt.mp atLeast)]

/-- A value is brought into a range that is not empty. -/
theorem clamp_eq
    {low high : Rat}
    (ordered : low ≤ high)
    (x : Rat) :
    Scalar.clamp x low high = max low (min high x) := by
  simp only [Scalar.clamp, less_eq, decide_eq_true_eq]
  split
  · next below => rw [max_eq_left ((min_le_right high x).trans below.le)]
  · next notBelow =>
    split
    · next above => rw [min_eq_left above.le, max_eq_right ordered]
    · next notAbove => rw [min_eq_right (not_lt.mp notAbove), max_eq_right (not_lt.mp notBelow)]

theorem residue_eq (x : Rat) (n : Nat) : Scalar.residue x n = x - n * ⌊x / n⌋ :=
  rfl

theorem truncNat_eq (x : Rat) : Scalar.truncNat x = ⌊x⌋₊ :=
  rfl

/-! ## Nearest whole numbers -/

/-- A fraction is rounded to the whole number nearest to it. -/
theorem isNearest_nearest
    {x : Rat}
    (nonneg : 0 ≤ x) :
    ((nearest x).toNat : Rat) = nearest x ∧
      IsNearest (nearest x).toNat (x : ℝ) := by
  have floor : nearest x = ⌊x + 1 / 2⌋ := if_pos nonneg
  have atLeast : 0 ≤ nearest x := floor ▸ Int.floor_nonneg.mpr (by linarith)
  have whole : ((nearest x).toNat : Int) = nearest x :=
    Int.toNat_of_nonneg atLeast
  have lower : ((nearest x).toNat : Rat) ≤ x + 1 / 2 := by
    rw [← Int.cast_natCast, whole, floor]
    exact Int.floor_le _
  have upper : x + 1 / 2 < (nearest x).toNat + 1 := by
    rw [← Int.cast_natCast (R := Rat), whole, floor]
    exact Int.lt_floor_add_one _
  have lower' : (((nearest x).toNat : Rat) : ℝ) ≤ ((x + 1 / 2 : Rat) : ℝ) :=
    Rat.cast_le.mpr lower
  have upper' : ((x + 1 / 2 : Rat) : ℝ) < (((nearest x).toNat + 1 : Rat) : ℝ) :=
    Rat.cast_lt.mpr upper
  push_cast at lower' upper'
  refine ⟨by rw [← Int.cast_natCast, whole], ⟨by linarith, by linarith⟩⟩

/-- A fraction of no more than the greatest byte is rounded to the byte nearest to it. -/
theorem isNearest_toByte
    {x : Rat}
    (nonneg : 0 ≤ x)
    (atMost : x ≤ 255) :
    IsNearest (Scalar.toByte x).toNat (x : ℝ) := by
  obtain ⟨-, isNearest⟩ := isNearest_nearest nonneg
  have small : (nearest x).toNat ≤ 255 := isNearest.le (by
    have real : (x : ℝ) ≤ 255 := by exact_mod_cast atMost
    push_cast
    linarith)
  change IsNearest (UInt8.ofNat (min (nearest x).toNat 255)).toNat _
  rwa [min_eq_left small, UInt8.toNat_ofNat', Nat.mod_eq_of_lt (by omega)]

/-- A byte is the nearest one to itself. -/
theorem toByte_toNat
    (v : UInt8) :
    Scalar.toByte (v.toNat : Rat) = v := by
  have few : (v.toNat : Rat) ≤ 255 := by exact_mod_cast Nat.le_of_lt_succ v.toNat_lt
  have isNearest := isNearest_toByte (Nat.cast_nonneg _) few
  rw [Rat.cast_natCast] at isNearest
  rw [← UInt8.toNat_inj]
  exact le_antisymm (isNearest.le (by linarith)) (isNearest.ge (by linarith))

end Rational
end Darkroom
