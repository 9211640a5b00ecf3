import Darkroom.Proofs.Color.Distance
import Darkroom.Proofs.Number.Extent
import Darkroom.Pixels.Tone

/-!
# Clip points of gray levels

Before contrast is stretched, so many of the darkest pixels are discarded, and so many of the
brightest.  The clip points are found from a histogram: levels are passed from the dark end, and
then from the bright end down to where the first pass has stopped, as long as no more pixels were
seen than may be discarded.  What was seen is a sum of counts, and these sums are the numbers of
pixels up to a level and from a level on.  So the first pass stops at the least level with too many
pixels up to it, and the second at the greatest level with too many from it on.
-/

namespace Darkroom
namespace Tone

open Color (isAbout_toFloat)
open Binary (IsAbout IsNormal Near Stands inRange_of_le lt_ofNat_iff roundoff)

/-! ## Gray levels -/

/-- The weight of a color as gray, in parts of ten thousand. -/
def grayWeight (c : Color) : Nat :=
  2126 * c.red.toNat + 7152 * c.green.toNat + 722 * c.blue.toNat

theorem grayWeight_le
    (c : Color) :
    grayWeight c ≤ 255 * 10000 := by
  have red := c.red.toNat_lt
  have green := c.green.toNat_lt
  have blue := c.blue.toNat_lt
  unfold grayWeight
  omega

theorem isAbout_literal
    {x : Float}
    {v : ℝ}
    (mantissa : Nat)
    (exponent : Int)
    (isNormal : IsNormal mantissa exponent)
    (unpacked : x.toModel.unpack = .finite .positive mantissa exponent isNormal.pos)
    (pos : 0 < v)
    (near : Near 1 (mantissa * 2 ^ exponent) v) :
    IsAbout 1 .positive x v := by
  rw [IsAbout, unpacked]
  exact .finite isNormal pos near

/-- The share of one channel in the weight. -/
theorem isAbout_share
    {x : Float}
    {w : Nat}
    (about : IsAbout 1 .positive x (w / 10000))
    (few : w ≤ 10000)
    (v : UInt8) :
    IsAbout 2 .positive (x * v.toFloat) ((w * v.toNat : Nat) / 10000) := by
  have value : (w : ℝ) / 10000 * v.toNat = (w * v.toNat : Nat) / 10000 := by
    push_cast
    ring
  have most : ((w * v.toNat : Nat) : ℝ) ≤ 10000 * 255 := by
    exact_mod_cast Nat.mul_le_mul few (Nat.le_of_lt_succ v.toNat_lt)
  have product := about.mul (isAbout_toFloat v) (by decide) fun pos => by
    rw [value] at pos ⊢
    have least := Color.one_le_of_div_pos pos
    exact inRange_of_le 20 (by decide) (by linarith) (by linarith)
  rwa [value] at product

theorem isAbout_sum
    {k m n : Nat}
    {x y : Float}
    (first : IsAbout k .positive x ((m : ℝ) / 10000))
    (second : IsAbout 2 .positive y ((n : ℝ) / 10000))
    (few : 2 ≤ k ∧ k ≤ 64)
    (most : m + n ≤ 255 * 10000) :
    IsAbout (k + 1) .positive (x + y) ((m + n : Nat) / 10000) := by
  have value : (m : ℝ) / 10000 + n / 10000 = (m + n : Nat) / 10000 := by
    push_cast
    ring
  have bound : ((m + n : Nat) : ℝ) ≤ 255 * 10000 := by exact_mod_cast most
  have added := Stands.add first (second.mono few.1) few.2 fun pos => by
    rw [value] at pos ⊢
    have least := Color.one_le_of_div_pos pos
    exact inRange_of_le 20 (by decide) (by linarith) (by linarith)
  rw [value] at added
  exact added.pack

theorem isAbout_luma
    (c : Color) :
    IsAbout 4 .positive c.luma (grayWeight c / 10000) := by
  have red : IsAbout 1 .positive 0.2126 ((2126 : Nat) / 10000) :=
    isAbout_literal 7659722246231740 (-55) ⟨by decide, by decide, by decide, by decide⟩ rfl
      (by norm_num) ⟨by norm_num [roundoff], by norm_num [roundoff]⟩
  have green : IsAbout 1 .positive 0.7152 ((7152 : Nat) / 10000) :=
    isAbout_literal 6441948906990757 (-53) ⟨by decide, by decide, by decide, by decide⟩ rfl
      (by norm_num) ⟨by norm_num [roundoff], by norm_num [roundoff]⟩
  have blue : IsAbout 1 .positive 0.0722 ((722 : Nat) / 10000) :=
    isAbout_literal 5202558289538397 (-56) ⟨by decide, by decide, by decide, by decide⟩ rfl
      (by norm_num) ⟨by norm_num [roundoff], by norm_num [roundoff]⟩
  have all := grayWeight_le c
  unfold grayWeight at all
  exact isAbout_sum
    (isAbout_sum (isAbout_share red (by decide) c.red) (isAbout_share green (by decide) c.green)
      (by decide) (by omega))
    (isAbout_share blue (by decide) c.blue) (by decide) all

/-- The gray level of a color is the whole number nearest to its weight. -/
theorem abs_lumaLevel_sub_grayWeight_le
    (c : Color) :
    |10000 * (lumaLevel c : Int) - grayWeight c| ≤ 5000 := by
  have most : (grayWeight c : ℝ) ≤ 255 * 10000 := by exact_mod_cast grayWeight_le c
  obtain ⟨n, close, byte, -, -⟩ := (isAbout_luma c).exists_rounded (by decide) (by linarith)
  obtain ⟨lower, upper⟩ := abs_le.mp close
  have below : n < 256 := by
    have less : (n : ℝ) < 256 := by linarith
    exact_mod_cast less
  have level : lumaLevel c = n := by
    rw [lumaLevel, byte, min_eq_left (Nat.le_of_lt_succ below), UInt8.toNat_ofNat',
      Nat.mod_eq_of_lt below]
  -- Whole numbers that are apart by hardly more than a half are apart by no more.
  have less : |10000 * (n : ℝ) - grayWeight c| < 5001 := by
    rw [abs_lt]
    constructor <;> linarith
  rw [level, ← Int.lt_add_one_iff]
  exact_mod_cast less

theorem lumaLevel_lt
    (c : Color) :
    lumaLevel c < 256 :=
  UInt8.toNat_lt _

/-! ## Counts -/

/-- One more color of a level is one more in every sum that reaches the level. -/
theorem sum_take_modify
    {counts : List Nat}
    {i : Nat}
    (inside : i < counts.length)
    (n : Nat) :
    ((counts.modify i (· + 1)).take n).sum = (counts.take n).sum + if i < n then 1 else 0 := by
  induction counts generalizing i n with
  | nil => exact absurd inside (Nat.not_lt_zero i)
  | cons count rest inductionHypothesis =>
      cases n with
      | zero => rfl
      | succ n =>
          cases i with
          | zero => simp [Nat.add_right_comm]
          | succ i => simp [inductionHypothesis (Nat.lt_of_succ_lt_succ inside), Nat.add_assoc]

theorem size_countLevel
    (counts : Array Nat)
    (c : Color) :
    (countLevel counts c).size = counts.size :=
  Array.size_modify

theorem sum_take_countLevel
    {counts : Array Nat}
    (size : counts.size = 256)
    (c : Color)
    (n : Nat) :
    ((countLevel counts c).toList.take n).sum =
      (counts.toList.take n).sum + if lumaLevel c < n then 1 else 0 := by
  have inside : lumaLevel c < counts.toList.length := by
    rw [Array.length_toList, size]
    exact lumaLevel_lt c
  rw [countLevel, Array.toList_modify, sum_take_modify inside]

theorem sum_take_foldl
    (colors : List Color)
    {counts : Array Nat}
    (size : counts.size = 256)
    (n : Nat) :
    ((colors.foldl countLevel counts).toList.take n).sum =
      (counts.toList.take n).sum + colors.countP (lumaLevel · < n) := by
  induction colors generalizing counts with
  | nil => rfl
  | cons c rest inductionHypothesis =>
      have counted : (countLevel counts c).size = 256 := (size_countLevel counts c).trans size
      rw [List.foldl_cons, inductionHypothesis counted, sum_take_countLevel size, List.countP_cons]
      simp only [decide_eq_true_eq]
      omega

theorem size_histogram
    (colors : List Color) :
    (histogram colors).size = 256 := by
  have folded (counts : Array Nat) : (colors.foldl countLevel counts).size = counts.size := by
    induction colors generalizing counts with
    | nil => rfl
    | cons c rest inductionHypothesis =>
        rw [List.foldl_cons, inductionHypothesis, size_countLevel]
  exact (folded _).trans Array.size_replicate

/-- The first counts add up to the number of colors below a level. -/
theorem sum_take_histogram
    (colors : List Color)
    (n : Nat) :
    ((histogram colors).toList.take n).sum = colors.countP (lumaLevel · < n) := by
  rw [histogram, sum_take_foldl colors Array.size_replicate, Array.toList_replicate,
    List.take_replicate, List.sum_replicate_nat, Nat.mul_zero, Nat.zero_add]

/-- The other counts add up to the number of colors from the level on. -/
theorem sum_drop_histogram
    (colors : List Color)
    (n : Nat) :
    ((histogram colors).toList.drop n).sum = colors.countP (n ≤ lumaLevel ·) := by
  have parts := congrArg List.sum (List.take_append_drop n (histogram colors).toList)
  have total : (histogram colors).toList.sum = colors.length := by
    have all := sum_take_histogram colors 256
    rw [List.take_of_length_le (by simp [size_histogram])] at all
    rw [all, List.countP_eq_length]
    simp [lumaLevel_lt]
  have others := colors.length_eq_countP_add_countP (lumaLevel · < n)
  simp only [decide_eq_true_eq, Nat.not_lt] at others
  rw [List.sum_append_nat, sum_take_histogram, total, others] at parts
  omega

/-! ## Passes over counts -/

section Passes

variable {limit : Float} {seen : Nat} {counts : List Nat}

theorem discarded_le_length :
    discarded limit seen counts ≤ counts.length := by
  induction counts generalizing seen with
  | nil => exact le_rfl
  | cons count rest inductionHypothesis =>
      rw [discarded]
      split
      · exact Nat.succ_le_succ inductionHypothesis
      · exact Nat.zero_le _

/-- A level is passed when no more than the limit were seen with it. -/
theorem le_of_lt_discarded
    {i : Nat}
    (passed : i < discarded limit seen counts) :
    Float.ofNat (seen + (counts.take (i + 1)).sum) ≤ limit := by
  induction counts generalizing seen i with
  | nil => exact absurd passed (Nat.not_lt_zero i)
  | cons count rest inductionHypothesis =>
      rw [discarded] at passed
      split at passed
      · next within =>
        cases i with
        | zero => simpa using within
        | succ i =>
            rw [List.take_succ_cons, List.sum_cons, ← Nat.add_assoc]
            exact inductionHypothesis (Nat.lt_of_succ_lt_succ passed)
      · exact absurd passed (Nat.not_lt_zero i)

/-- A level is not passed when more than the limit were seen with it. -/
theorem not_le_of_discarded_lt
    (stopped : discarded limit seen counts < counts.length) :
    ¬ Float.ofNat (seen + (counts.take (discarded limit seen counts + 1)).sum) ≤ limit := by
  induction counts generalizing seen with
  | nil => exact absurd stopped (Nat.not_lt_zero _)
  | cons count rest inductionHypothesis =>
      rw [discarded] at stopped ⊢
      split at stopped
      · next within =>
        rw [if_pos within, List.take_succ_cons, List.sum_cons, ← Nat.add_assoc]
        exact inductionHypothesis (Nat.lt_of_succ_lt_succ stopped)
      · next beyond =>
        rw [if_neg beyond]
        simpa using beyond

/-- A pass stops at the first level with which more than the limit were seen, or at the end. -/
theorem discarded_cases
    (limit : Float)
    {seenWith : Nat → Nat}
    (sums : ∀ i < counts.length, (counts.take (i + 1)).sum = seenWith i) :
    discarded limit 0 counts ≤ counts.length ∧
      (∀ i < discarded limit 0 counts, Float.ofNat (seenWith i) ≤ limit) ∧
      (discarded limit 0 counts < counts.length →
        ¬ Float.ofNat (seenWith (discarded limit 0 counts)) ≤ limit) := by
  have most : discarded limit 0 counts ≤ counts.length := discarded_le_length
  refine ⟨most, fun i passed => ?_, fun stopped => ?_⟩
  · have within := le_of_lt_discarded passed
    rwa [Nat.zero_add, sums i (passed.trans_le most)] at within
  · have beyond := not_le_of_discarded_lt stopped
    rwa [Nat.zero_add, sums _ stopped] at beyond

end Passes

/-! ## Clip points -/

/-- Two gray levels are the clip points when it is known which levels have too much up to them and
which have too much from them on. -/
structure IsClip (tooDark tooBright : Nat → Prop) (low high : Nat) : Prop where
  /-- They are in order. -/
  ordered : low ≤ high
  /-- They are levels. -/
  within : high ≤ 255
  /-- The dark one is the least level with too much up to it, and the last level if there is
  none. -/
  dark : IsLeast {n | n ≤ 255 ∧ tooDark n} low ∨ (∀ n ≤ 255, ¬ tooDark n) ∧ low = 255
  /-- The bright one is the greatest level with too much from it on, of those that are not below the
  dark one, and the dark one if there is none. -/
  bright : IsGreatest {n | low ≤ n ∧ n ≤ 255 ∧ tooBright n} high ∨
    (∀ n, low ≤ n → n ≤ 255 → ¬ tooBright n) ∧ high = low

/-- Clip points are where passes from both ends stop. -/
theorem isClip_of_passes
    {tooDark tooBright : Nat → Prop}
    {low passed : Nat}
    (low_le : low ≤ 255)
    (darkPassed : ∀ n < low, ¬ tooDark n)
    (darkStopped : low < 255 → tooDark low)
    (passed_le : passed ≤ 255 - low)
    (brightPassed : ∀ i < passed, ¬ tooBright (255 - i))
    (brightStopped : passed < 255 - low → tooBright (255 - passed)) :
    IsClip tooDark tooBright low (255 - passed) := by
  have brightAbove (n : Nat) (above : 255 - passed < n) (within : n ≤ 255) : ¬ tooBright n := by
    rw [← Nat.sub_sub_self within]
    exact brightPassed (255 - n) (by omega)
  refine ⟨by omega, Nat.sub_le _ _, ?_, ?_⟩
  · by_cases atLow : tooDark low
    · exact .inl ⟨⟨low_le, atLow⟩, fun n found => not_lt.mp fun less => darkPassed n less found.2⟩
    · obtain rfl : low = 255 := low_le.antisymm (not_lt.mp (mt darkStopped atLow))
      refine .inr ⟨fun n within => ?_, rfl⟩
      rcases within.lt_or_eq with less | rfl
      · exact darkPassed n less
      · exact atLow
  · by_cases atHigh : tooBright (255 - passed)
    · exact .inl ⟨⟨by omega, Nat.sub_le _ _, atHigh⟩,
        fun n found => not_lt.mp fun less => brightAbove n less found.2.1 found.2.2⟩
    · have ended : 255 - low ≤ passed := not_lt.mp (mt brightStopped atHigh)
      obtain rfl : low = 255 - passed := by omega
      refine .inr ⟨fun n from_low within => ?_, rfl⟩
      rcases from_low.lt_or_eq with less | rfl
      · exact brightAbove n less within
      · exact atHigh

/-- The number of pixels up to a gray level. -/
def darkCount (image : Image) (n : Nat) : Nat :=
  image.raster.toList.countP (lumaLevel · ≤ n)

/-- The number of pixels from a gray level on. -/
def brightCount (image : Image) (n : Nat) : Nat :=
  image.raster.toList.countP (n ≤ lumaLevel ·)

/-- Both passes over the counts of a histogram stop at clip points. -/
theorem isClip_histogramBounds
    (image : Image)
    (black white : Float) :
    IsClip (fun n => ¬ Float.ofNat (darkCount image n) ≤ black)
      (fun n => ¬ Float.ofNat (brightCount image n) ≤ white)
      (histogramBounds image.raster.toList black white).1
      (histogramBounds image.raster.toList black white).2 := by
  let counts := (histogram image.raster.toList).toList
  have length : counts.length = 256 := by rw [Array.length_toList, size_histogram]
  -- The pass from the dark end does not look at the last level.
  have darkLength : (counts.take 255).length = 255 := by simp [length]
  have darkSums : ∀ n < (counts.take 255).length,
      ((counts.take 255).take (n + 1)).sum = darkCount image n := by
    intro n early
    rw [darkLength] at early
    rw [List.take_take, Nat.min_eq_left early, sum_take_histogram, darkCount]
    simp only [Nat.lt_succ_iff]
  obtain ⟨low_le, darkPassed, darkStopped⟩ := discarded_cases black darkSums
  rw [darkLength] at low_le darkStopped
  change IsClip _ _ (discarded black 0 (counts.take 255)) (255 - discarded white 0 _)
  generalize discarded black 0 (counts.take 255) = low at low_le darkPassed darkStopped ⊢
  -- The pass from the bright end does not look at the level where the first one has stopped.
  have brightLength : (counts.drop (low + 1)).reverse.length = 255 - low := by
    rw [List.length_reverse, List.length_drop, length]
    omega
  have brightSums : ∀ i < (counts.drop (low + 1)).reverse.length,
      ((counts.drop (low + 1)).reverse.take (i + 1)).sum = brightCount image (255 - i) := by
    intro i early
    rw [brightLength] at early
    have place : low + 1 + ((counts.drop (low + 1)).length - (i + 1)) = 255 - i := by
      rw [List.length_drop, length]
      omega
    rw [List.take_reverse, List.sum_reverse_nat, List.drop_drop, place, sum_drop_histogram,
      brightCount]
  obtain ⟨passed_le, brightPassed, brightStopped⟩ := discarded_cases white brightSums
  rw [brightLength] at passed_le brightStopped
  exact isClip_of_passes low_le (fun n below => not_not.mpr (darkPassed n below)) darkStopped
    passed_le (fun i below => not_not.mpr (brightPassed i below)) brightStopped

theorem not_ofNat_le_iff
    {clip : Float}
    (nonneg : 0.0 ≤ clip)
    (n : Nat) :
    ¬ Float.ofNat n ≤ clip ↔ clip < Float.ofNat n := by
  have number : (Float.ofNat n).isNaN = false :=
    (Binary.isUnsigned_ofScientific n false 0).isNaN_eq_false
  rw [Binary.le_iff_not_lt number (Binary.isNaN_eq_false_of_nonneg nonneg), not_not]

/-- The clip points of an image are the least level up to which there are more pixels than may be
discarded as dark, and the greatest level, not below it, from which on there are more than may be
discarded as bright; the last level and the dark point stand in where there is no such level.  The
level of a pixel is the whole number nearest to its weight as gray.  Numbers of pixels are compared
as doubles, which says the same as comparing the numbers themselves as long as they have at most 53
digits. -/
theorem clip_points_extremal
    (image : Image)
    {black white : Float}
    (black_nonneg : 0.0 ≤ black)
    (white_nonneg : 0.0 ≤ white) :
    (∀ c : Color, |10000 * (lumaLevel c : Int) - grayWeight c| ≤ 5000) ∧
      IsClip (fun n => black < Float.ofNat (darkCount image n))
        (fun n => white < Float.ofNat (brightCount image n))
        (histogramBounds image.raster.toList black white).1
        (histogramBounds image.raster.toList black white).2 ∧
      (image.raster.size.area < 2 ^ 53 →
        IsClip (fun n => (Binary.ofFloat black).IsLess (darkCount image n))
          (fun n => (Binary.ofFloat white).IsLess (brightCount image n))
          (histogramBounds image.raster.toList black white).1
          (histogramBounds image.raster.toList black white).2) := by
  have clip := isClip_histogramBounds image black white
  simp only [not_ofNat_le_iff black_nonneg, not_ofNat_le_iff white_nonneg] at clip
  refine ⟨abs_lumaLevel_sub_grayWeight_le, clip, fun small => ?_⟩
  have counted (p : Color → Bool) : image.raster.toList.countP p < 2 ^ 53 := by
    refine List.countP_le_length.trans_lt ?_
    rwa [Raster.toList, Array.length_toList, image.raster.filled]
  simp only [lt_ofNat_iff (counted _), darkCount, brightCount] at clip
  exact clip

/-- Of a blue, a red, a green and a white pixel one may be discarded at each end: the blue one and
the white one are. -/
theorem red_and_green_are_clip_points :
    let colors : List Color := [⟨0, 255, 0, 255⟩, ⟨0, 0, 255, 255⟩, .white, ⟨255, 0, 0, 255⟩]
    let image : Image := { bitmap := .rgba (.ofList ⟨4, 1⟩ colors) }
    0.0 ≤ (1.0 : Float) ∧ image.raster.size.area < 2 ^ 53 ∧
      histogramBounds image.raster.toList 1.0 1.0 = (54, 182) ∧
      IsClip (fun n => 1.0 < Float.ofNat (darkCount image n))
        (fun n => 1.0 < Float.ofNat (brightCount image n)) 54 182 ∧
      IsClip (fun n => (Binary.ofFloat 1.0).IsLess (darkCount image n))
        (fun n => (Binary.ofFloat 1.0).IsLess (brightCount image n)) 54 182 := by
  intro colors image
  have one_nonneg : 0.0 ≤ (1.0 : Float) := (Binary.le_iff_le _ _).mpr rfl
  have small : image.raster.size.area < 2 ^ 53 := by decide
  have bounds : histogramBounds image.raster.toList 1.0 1.0 = (54, 182) := by decide +kernel
  obtain ⟨-, asDoubles, asNumbers⟩ := clip_points_extremal image one_nonneg one_nonneg
  rw [bounds] at asDoubles asNumbers
  exact ⟨one_nonneg, small, bounds, asDoubles, asNumbers small⟩

end Tone
end Darkroom
