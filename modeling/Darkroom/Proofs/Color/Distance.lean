import Darkroom.Color.Basic
import Darkroom.Proofs.Number.Approximation

/-!
# Distances of colors

The distance of two colors is computed with roundings, but so few that it never misjudges which of
two colors is nearer to a third: the squared distances are whole numbers and at least one apart, and
far from so many that the roundings could reach across.
-/

namespace Darkroom
namespace Color

open Binary (IsAbout InRange IsNormal Near inRange_of_le roundoff)
open Float.Model.UnpackedFloat (Sign)

/-- The difference of two channel values, its sign left aside. -/
def difference (a b : UInt8) : Nat :=
  ((a.toNat : Int) - b.toNat).natAbs

/-- The square of the difference of two channel values. -/
def squaredDifference (a b : UInt8) : Nat :=
  difference a b ^ 2

/-- The exact squared distance over all four channels. -/
def squaredDistance (c d : Color) : Nat :=
  squaredDifference c.red d.red + squaredDifference c.green d.green +
    squaredDifference c.blue d.blue + squaredDifference c.alpha d.alpha

theorem difference_le
    (a b : UInt8) :
    difference a b ≤ 255 := by
  have first := a.toNat_lt
  have second := b.toNat_lt
  unfold difference
  omega

theorem squaredDifference_le
    (a b : UInt8) :
    squaredDifference a b ≤ 255 ^ 2 :=
  Nat.pow_le_pow_left (difference_le a b) 2

theorem squaredDistance_le
    (c d : Color) :
    squaredDistance c d ≤ 4 * 255 ^ 2 := by
  have red := squaredDifference_le c.red d.red
  have green := squaredDifference_le c.green d.green
  have blue := squaredDifference_le c.blue d.blue
  have alpha := squaredDifference_le c.alpha d.alpha
  unfold squaredDistance
  omega

theorem squaredDifference_eq_zero_iff
    {a b : UInt8} :
    squaredDifference a b = 0 ↔ a = b := by
  rw [squaredDifference, pow_eq_zero_iff two_ne_zero, difference, Int.natAbs_eq_zero, sub_eq_zero,
    Nat.cast_inj, UInt8.toNat_inj]

/-- Nothing but the color itself is at no distance. -/
theorem squaredDistance_eq_zero_iff
    {c d : Color} :
    squaredDistance c d = 0 ↔ c = d := by
  simp only [squaredDistance, Nat.add_eq_zero_iff, squaredDifference_eq_zero_iff]
  constructor
  · rintro ⟨⟨⟨red, green⟩, blue⟩, alpha⟩
    cases c
    cases d
    simp_all
  · rintro rfl
    exact ⟨⟨⟨rfl, rfl⟩, rfl⟩, rfl⟩

/-! ## The computed distance -/

theorem isAbout_toFloat
    (v : UInt8) :
    IsAbout 0 .positive v.toFloat v.toNat :=
  (Binary.stands_ofNat (v.toNat_lt.trans (by decide))).pack

theorem one_le_of_div_pos
    {n : Nat}
    {divisor : ℝ}
    (pos : 0 < (n : ℝ) / divisor) :
    (1 : ℝ) ≤ n := by
  refine Nat.one_le_cast.mpr (Nat.pos_of_ne_zero ?_)
  rintro rfl
  rw [Nat.cast_zero, zero_div] at pos
  exact lt_irrefl 0 pos

theorem abs_sub_eq_difference
    (a b : UInt8) :
    |(a.toNat : ℝ) - b.toNat| = difference a b := by
  rw [difference, Nat.cast_natAbs, Int.cast_abs]
  push_cast
  rfl

theorem isAbout_sub
    (a b : UInt8) :
    ∃ sign, IsAbout 1 sign (a.toFloat - b.toFloat) (difference a b) := by
  have value := abs_sub_eq_difference a b
  have upper : (difference a b : ℝ) ≤ 255 := by exact_mod_cast difference_le a b
  have stands := Binary.Stands.sub (isAbout_toFloat a) (isAbout_toFloat b)
    fun distinct => by
      rw [value]
      have lower : (1 : ℝ) ≤ difference a b := by
        rw [Nat.one_le_cast, Nat.one_le_iff_ne_zero]
        intro same
        rw [same, Nat.cast_zero, abs_eq_zero, sub_eq_zero] at value
        exact distinct value
      exact inRange_of_le 20 (by decide) (by linarith) (by linarith)
  rw [value] at stands
  exact ⟨_, stands.pack⟩

/-- What one channel adds to the squared distance, as a fraction of the greatest it can add. -/
theorem isAbout_part
    (a b : UInt8) :
    IsAbout 5 .positive
      ((a.toFloat - b.toFloat) / 255.0 * ((a.toFloat - b.toFloat) / 255.0))
      (squaredDifference a b / 255 ^ 2) := by
  have upper : (difference a b : ℝ) ≤ 255 := by exact_mod_cast difference_le a b
  obtain ⟨sign, whole⟩ := isAbout_sub a b
  have isNormal : IsNormal (255 * 2 ^ 45) (-45) :=
    ⟨by decide, by decide, by decide, by decide⟩
  have literal : (255.0 : Float).toModel.unpack =
      .finite .positive (255 * 2 ^ 45) (-45) isNormal.pos := by rfl
  have value : ((255 * 2 ^ 45 : Nat) : ℝ) * 2 ^ (-45 : Int) = 255 := by norm_num
  have fraction := whole.div isNormal literal value (by decide) fun pos => by
    have lower : (1 : ℝ) ≤ difference a b := Nat.one_le_cast.mpr (Nat.cast_pos.mp pos)
    exact inRange_of_le 20 (by decide) (by linarith) (by linarith)
  have same : (difference a b : ℝ) / 255 * (difference a b / 255) =
      squaredDifference a b / 255 ^ 2 := by
    rw [squaredDifference, Nat.cast_pow]
    ring
  have squared := Binary.Stands.square fraction (by decide) fun pos => by
    have lower := one_le_of_div_pos pos
    exact inRange_of_le 20 (by decide) (by nlinarith) (by nlinarith)
  rw [same] at squared
  exact squared.pack

/-- Sums of channels are added up. -/
theorem isAbout_add
    {k m n : Nat}
    {x y : Float}
    (first : IsAbout k .positive x (m / 255 ^ 2))
    (second : IsAbout 5 .positive y (n / 255 ^ 2))
    (few : 5 ≤ k ∧ k ≤ 64)
    (upper : m + n ≤ 4 * 255 ^ 2) :
    IsAbout (k + 1) .positive (x + y) ((m + n : Nat) / 255 ^ 2) := by
  have bound : ((m + n : Nat) : ℝ) ≤ 4 * 255 ^ 2 := by exact_mod_cast upper
  have same : (m : ℝ) / 255 ^ 2 + n / 255 ^ 2 = (m + n : Nat) / 255 ^ 2 := by
    rw [← add_div, Nat.cast_add]
  have added := Binary.Stands.add first (second.mono few.1) few.2 fun pos => by
    rw [same] at pos ⊢
    have lower := one_le_of_div_pos pos
    exact inRange_of_le 20 (by decide) (by linarith) (by linarith)
  rw [same] at added
  exact added.pack

/-- The computed distance stands for the exact one, up to ten roundings. -/
theorem isAbout_distance
    (c d : Color) :
    IsAbout 10 .positive (c.distance d) (√((squaredDistance c d : ℝ) / 255 ^ 2 / 4)) := by
  have red := squaredDifference_le c.red d.red
  have green := squaredDifference_le c.green d.green
  have blue := squaredDifference_le c.blue d.blue
  have alpha := squaredDifference_le c.alpha d.alpha
  have two := isAbout_add (isAbout_part c.red d.red) (isAbout_part c.green d.green)
    (by decide) (by omega)
  have three := isAbout_add two (isAbout_part c.blue d.blue) (by decide) (by omega)
  have four := isAbout_add three (isAbout_part c.alpha d.alpha) (by decide) (by omega)
  have upper : (squaredDistance c d : ℝ) ≤ 4 * 255 ^ 2 := by
    exact_mod_cast squaredDistance_le c d
  have isNormal : IsNormal (2 ^ 52) (-50) := ⟨by decide, by decide, by decide, by decide⟩
  have literal : (4.0 : Float).toModel.unpack =
      .finite .positive (2 ^ 52) (-50) isNormal.pos := by rfl
  have value : ((2 ^ 52 : Nat) : ℝ) * 2 ^ (-50 : Int) = 4 := by norm_num
  have quotient := four.div isNormal literal value (by decide) fun pos => by
    have lower := one_le_of_div_pos pos
    change (1 : ℝ) ≤ squaredDistance c d at lower
    change InRange 499 ((squaredDistance c d : ℝ) / 255 ^ 2 / 4)
    exact inRange_of_le 20 (by decide) (by linarith) (by linarith)
  have root := Binary.Stands.sqrt quotient (by decide) fun pos => by
    have lower := one_le_of_div_pos (by rwa [div_div] at pos)
    change (1 : ℝ) ≤ squaredDistance c d at lower
    change InRange 499 (√((squaredDistance c d : ℝ) / 255 ^ 2 / 4))
    refine inRange_of_le 20 (by decide) (Real.le_sqrt_of_sq_le ?_) (Real.sqrt_le_iff.mpr ⟨?_, ?_⟩)
    · linarith
    · norm_num
    · linarith
  exact root.pack

/-! ## Nearer colors -/

/-- A color that is nearer is found to be nearer. -/
theorem distance_lt_of_squaredDistance_lt
    {c first second : Color}
    (nearer : squaredDistance c first < squaredDistance c second) :
    c.distance first < c.distance second := by
  refine (isAbout_distance c first).lt (isAbout_distance c second) ?_
  have upper : (squaredDistance c second : ℝ) ≤ 4 * 255 ^ 2 := by
    exact_mod_cast squaredDistance_le c second
  have apart : (squaredDistance c first : ℝ) + 1 ≤ squaredDistance c second := by
    exact_mod_cast nearer
  have nonneg : (0 : ℝ) ≤ squaredDistance c first := Nat.cast_nonneg _
  have more : ((1 + roundoff) ^ 10) ^ 2 ≤ 1 + 1 / 2 ^ 40 := by norm_num [roundoff]
  have fewer : 1 - 1 / 2 ^ 40 ≤ ((1 - roundoff) ^ 10) ^ 2 := by norm_num [roundoff]
  have low := Near.pow_lower_nonneg 10
  have high := zero_le_one.trans (Near.one_le_pow_upper 10)
  rw [← Real.sqrt_sq high, ← Real.sqrt_sq low, ← Real.sqrt_mul (by positivity),
    ← Real.sqrt_mul (by positivity)]
  refine Real.sqrt_lt_sqrt (by positivity) ?_
  calc (squaredDistance c first : ℝ) / 255 ^ 2 / 4 * ((1 + roundoff) ^ 10) ^ 2
      ≤ squaredDistance c first / 255 ^ 2 / 4 * (1 + 1 / 2 ^ 40) :=
        mul_le_mul_of_nonneg_left more (by positivity)
    _ < squaredDistance c second / 255 ^ 2 / 4 * (1 - 1 / 2 ^ 40) := by linarith
    _ ≤ squaredDistance c second / 255 ^ 2 / 4 * ((1 - roundoff) ^ 10) ^ 2 :=
        mul_le_mul_of_nonneg_left fewer (by positivity)

end Color
end Darkroom
