import Darkroom.Engine.Pixel
import Darkroom.Operators.Image.Tone
import Darkroom.Proofs.Number.Rational
import Darkroom.Proofs.Pixels.Raster

/-!
# Colors from hue, saturation and lightness

The circle of hues falls into six sectors.  In each of them one channel takes all of the chroma, one
takes none of it, and one takes a part that grows or falls evenly, so that two sectors agree where
they meet.  Where channels are equal it therefore does not matter which sector is chosen, and in
exact arithmetic the hue, saturation and lightness of a color are turned back into the color.
-/

namespace Darkroom
namespace Hsl

/-! ## Sectors -/

/-- The parts of the chroma that red, green and blue take at a place in a sector. -/
def shares (sector : Nat) (t : Rat) : Rat × Rat × Rat :=
  match sector with
  | 0 => (1, t, 0)
  | 1 => (2 - t, 1, 0)
  | 2 => (0, 1, t - 2)
  | 3 => (0, 4 - t, 1)
  | 4 => (t - 4, 0, 1)
  | _ => (1, 0, 6 - t)

/-- Two sectors agree where they meet. -/
theorem shares_succ
    {sector : Nat}
    (inside : sector < 5) :
    shares (sector + 1) (sector + 1) = shares sector (sector + 1) := by
  interval_cases sector <;> norm_num [shares]

/-- The end of a sector may be counted to it. -/
theorem shares_floor
    {sector : Nat}
    {t : Rat}
    (lower : sector ≤ t)
    (upper : t ≤ sector + 1)
    (less : t < 6) :
    shares ⌊t⌋₊ t = shares sector t := by
  rcases upper.lt_or_eq with inside | rfl
  · rw [(Nat.floor_eq_iff ((Nat.cast_nonneg sector).trans lower)).mpr ⟨lower, inside⟩]
  · have few : sector < 5 := by
      have below : sector + 1 < 6 := by exact_mod_cast less
      omega
    have floor : ⌊(sector : Rat) + 1⌋₊ = sector + 1 := by
      exact_mod_cast Nat.floor_natCast (R := Rat) (sector + 1)
    rw [floor, shares_succ few]

/-- The part of the second channel grows in even sectors and falls in odd ones. -/
theorem second_eq
    {sector : Nat}
    {t : Rat}
    (lower : sector ≤ t)
    (upper : t < sector + 1) :
    1 - |Scalar.residue t 2 - 1| =
      if sector % 2 = 0 then t - sector else sector + 1 - t := by
  have parts : ((2 * (sector / 2) + sector % 2 : Nat) : Rat) = sector :=
    congrArg Nat.cast (Nat.div_add_mod sector 2)
  push_cast at parts
  have half : ⌊t / 2⌋ = ((sector / 2 : Nat) : Int) := by
    have odd : ((sector % 2 : Nat) : Rat) ≤ 1 := by
      exact_mod_cast Nat.lt_succ_iff.mp (Nat.mod_lt sector two_pos)
    have nonneg : (0 : Rat) ≤ (sector % 2 : Nat) := Nat.cast_nonneg _
    rw [Int.floor_eq_iff, Int.cast_natCast]
    constructor <;> linarith
  rw [Rational.residue_eq, Nat.cast_ofNat, half, Int.cast_natCast]
  rcases Nat.mod_two_eq_zero_or_one sector with even | odd
  · rw [even, Nat.cast_zero] at parts
    rw [if_pos even, abs_of_nonpos (by linarith)]
    linarith
  · rw [odd, Nat.cast_one] at parts
    rw [if_neg (by omega), abs_of_nonneg (by linarith)]
    linarith

/-- A hue is turned into the shares of its sector. -/
theorem toColor_eq
    {hue : Rat}
    (nonneg : 0 ≤ hue)
    (less : hue < 1)
    (saturation lightness : Rat)
    (alpha : UInt8) :
    (⟨hue, saturation, lightness⟩ : Hsl Rat).toColor alpha =
      let chroma := (1 - |2 * lightness - 1|) * saturation
      let base := lightness - chroma / 2
      let byte (share : Rat) : UInt8 := Scalar.toByte ((chroma * share + base) * 255)
      let parts := shares ⌊hue * 6⌋₊ (hue * 6)
      ⟨byte parts.1, byte parts.2.1, byte parts.2.2, alpha⟩ := by
  have whole : Scalar.residue hue 1 = hue := by
    have floor : ⌊hue⌋ = 0 := Int.floor_eq_zero_iff.mpr ⟨nonneg, less⟩
    rw [Rational.residue_eq, Nat.cast_one, div_one, floor, Int.cast_zero, mul_zero, sub_zero]
  have lower := Nat.floor_le (show 0 ≤ hue * 6 by linarith)
  have upper := Nat.lt_floor_add_one (hue * 6)
  have second := second_eq lower upper
  have few : ⌊hue * 6⌋₊ < 6 := by
    refine (Nat.floor_lt (by linarith)).mpr ?_
    push_cast
    linarith
  simp only [toColor, whole, Rational.whole_eq, Rational.magnitude_eq, Rational.truncNat_eq,
    Nat.cast_zero, Nat.cast_one, Nat.cast_ofNat, second]
  generalize ⌊hue * 6⌋₊ = sector at *
  interval_cases sector <;> norm_num [shares]

/-! ## Places on the circle -/

/-- Parts of the chroma: the greatest is all of it, and the least is none of it. -/
structure IsSpread (x y z : Rat) : Prop where
  /-- No part is less than none. -/
  nonneg : 0 ≤ x ∧ 0 ≤ y ∧ 0 ≤ z
  /-- No part is more than all. -/
  atMost : x ≤ 1 ∧ y ≤ 1 ∧ z ≤ 1
  /-- One channel takes none. -/
  none : x = 0 ∨ y = 0 ∨ z = 0
  /-- One channel takes all. -/
  all : x = 1 ∨ y = 1 ∨ z = 1

/-- The place on the circle, in sectors, where red, green and blue take these parts. -/
def place (x y z : Rat) : Rat :=
  if x = 1 then Scalar.residue (y - z) 6 else if y = 1 then z - x + 2 else x - y + 4

theorem residue_six_of_nonneg
    {t : Rat}
    (nonneg : 0 ≤ t)
    (less : t < 6) :
    Scalar.residue t 6 = t := by
  have floor : ⌊t / 6⌋ = 0 := Int.floor_eq_zero_iff.mpr ⟨by linarith, by linarith⟩
  rw [Rational.residue_eq, Nat.cast_ofNat, floor, Int.cast_zero, mul_zero, sub_zero]

theorem residue_six_of_neg
    {t : Rat}
    (negative : t < 0)
    (atLeast : -6 ≤ t) :
    Scalar.residue t 6 = 6 + t := by
  have floor : ⌊t / 6⌋ = -1 := by
    rw [Int.floor_eq_iff]
    push_cast
    constructor <;> linarith
  rw [Rational.residue_eq, Nat.cast_ofNat, floor, Int.cast_neg, Int.cast_one]
  ring

/-- Each order of the channels has its sector, so that the shares at the place are the parts. -/
theorem IsSpread.shares_place
    {x y z : Rat}
    (spread : IsSpread x y z) :
    0 ≤ place x y z ∧ place x y z < 6 ∧ shares ⌊place x y z⌋₊ (place x y z) = (x, y, z) := by
  -- The place is in a closed sector, where the shares are the parts.
  suffices ∃ sector : Nat, sector ≤ place x y z ∧ place x y z ≤ sector + 1 ∧ place x y z < 6 ∧
      shares sector (place x y z) = (x, y, z) by
    obtain ⟨sector, lower, upper, less, same⟩ := this
    exact ⟨(Nat.cast_nonneg sector).trans lower, less, shares_floor lower upper less ▸ same⟩
  obtain ⟨⟨x_nonneg, y_nonneg, z_nonneg⟩, ⟨x_atMost, y_atMost, z_atMost⟩, none, all⟩ := spread
  have least {part : Rat} (nonneg : 0 ≤ part) (below : part ≤ x ∧ part ≤ y ∧ part ≤ z) :
      part = 0 := by
    rcases none with zero | zero | zero <;> linarith
  by_cases red : x = 1
  · subst red
    rw [place, if_pos rfl]
    rcases lt_or_ge y z with less | atLeast
    · obtain rfl : y = 0 := least y_nonneg ⟨y_atMost, le_rfl, less.le⟩
      rw [residue_six_of_neg (by linarith) (by linarith)]
      refine ⟨5, ?_, ?_, by linarith, ?_⟩ <;> norm_num [shares] <;> linarith
    · obtain rfl : z = 0 := least z_nonneg ⟨z_atMost, atLeast, le_rfl⟩
      rw [residue_six_of_nonneg (by linarith) (by linarith)]
      refine ⟨0, ?_, ?_, by linarith, ?_⟩ <;> norm_num [shares] <;> linarith
  · rw [place, if_neg red]
    by_cases green : y = 1
    · subst green
      rw [if_pos rfl]
      rcases lt_or_ge z x with less | atLeast
      · obtain rfl : z = 0 := least z_nonneg ⟨less.le, z_atMost, le_rfl⟩
        refine ⟨1, ?_, ?_, by linarith, ?_⟩ <;> norm_num [shares] <;> linarith
      · obtain rfl : x = 0 := least x_nonneg ⟨le_rfl, x_atMost, atLeast⟩
        refine ⟨2, ?_, ?_, by linarith, ?_⟩ <;> norm_num [shares] <;> linarith
    · rw [if_neg green]
      obtain rfl : z = 1 := (all.resolve_left red).resolve_left green
      rcases lt_or_ge x y with less | atLeast
      · obtain rfl : x = 0 := least x_nonneg ⟨le_rfl, less.le, x_atMost⟩
        refine ⟨3, ?_, ?_, by linarith, ?_⟩ <;> norm_num [shares] <;> linarith
      · obtain rfl : y = 0 := least y_nonneg ⟨atLeast, le_rfl, y_atMost⟩
        refine ⟨4, ?_, ?_, by linarith, ?_⟩ <;> norm_num [shares] <;> linarith

/-! ## Chroma -/

/-- The saturation of a color with these greatest and least channels. -/
def saturationBetween (low high : Rat) : Rat :=
  if 1 / 2 < (high + low) / 2 then (high - low) / (2 - high - low) else (high - low) / (high + low)

section Saturation

variable {low high : Rat} (nonneg : 0 ≤ low) (less : low < high) (atMost : high ≤ 1)

include nonneg less atMost

/-- The chroma is what the greatest channel has over the least one, by both formulas. -/
theorem chroma_eq :
    (1 - |2 * ((high + low) / 2) - 1|) * saturationBetween low high = high - low := by
  unfold saturationBetween
  split
  · next light =>
    have positive : 2 - high - low ≠ 0 := by linarith
    rw [abs_of_nonneg (by linarith)]
    field_simp
    ring
  · next dark =>
    have positive : high + low ≠ 0 := by linarith
    rw [abs_of_nonpos (by linarith)]
    field_simp
    ring

/-- A saturation is a part of the whole. -/
theorem saturationBetween_mem :
    0 ≤ saturationBetween low high ∧ saturationBetween low high ≤ 1 := by
  unfold saturationBetween
  split
  · exact ⟨div_nonneg (by linarith) (by linarith), (div_le_one (by linarith)).mpr (by linarith)⟩
  · exact ⟨div_nonneg (by linarith) (by linarith), (div_le_one (by linarith)).mpr (by linarith)⟩

end Saturation

/-! ## Colors -/

/-- A byte as a fraction. -/
def fraction (v : UInt8) : Rat :=
  v.toNat / 255

theorem fraction_nonneg (v : UInt8) : 0 ≤ fraction v := by
  unfold fraction
  positivity

theorem fraction_le_one
    (v : UInt8) :
    fraction v ≤ 1 := by
  have few : (v.toNat : Rat) ≤ 255 := by exact_mod_cast Nat.le_of_lt_succ v.toNat_lt
  exact (div_le_one (by norm_num)).mpr few

theorem toByte_fraction
    (v : UInt8) :
    Scalar.toByte (fraction v * 255) = v := by
  rw [fraction, div_mul_cancel₀ _ (by norm_num), Rational.toByte_toNat]

/-- Different bytes are further apart than what counts as nothing. -/
theorem tiny_le_sub
    {u v : UInt8}
    (less : fraction u < fraction v) :
    1 / 2 ^ 52 ≤ fraction v - fraction u := by
  have apart : (u.toNat : Rat) + 1 ≤ v.toNat := by
    have ordered : (u.toNat : Rat) < v.toNat := (div_lt_div_iff_of_pos_right (by norm_num)).mp less
    exact_mod_cast ordered
  unfold fraction
  linarith

/-- The greatest channel as a fraction. -/
def greatestPart (c : Color) : Rat :=
  max (max (fraction c.red) (fraction c.green)) (fraction c.blue)

/-- The least channel as a fraction. -/
def leastPart (c : Color) : Rat :=
  min (min (fraction c.red) (fraction c.green)) (fraction c.blue)

/-- The part of the chroma that a channel has over the least one. -/
def chromaPart (c : Color) (v : UInt8) : Rat :=
  (fraction v - leastPart c) / (greatestPart c - leastPart c)

section Parts

variable (c : Color)

theorem greatestPart_mem : greatestPart c ∈ Set.range fraction :=
  max_rec' (· ∈ Set.range fraction) (max_rec' _ ⟨_, rfl⟩ ⟨_, rfl⟩) ⟨_, rfl⟩

theorem leastPart_mem : leastPart c ∈ Set.range fraction :=
  min_rec' (· ∈ Set.range fraction) (min_rec' _ ⟨_, rfl⟩ ⟨_, rfl⟩) ⟨_, rfl⟩

theorem leastPart_nonneg : 0 ≤ leastPart c :=
  le_min (le_min (fraction_nonneg _) (fraction_nonneg _)) (fraction_nonneg _)

theorem greatestPart_le_one : greatestPart c ≤ 1 :=
  max_le (max_le (fraction_le_one _) (fraction_le_one _)) (fraction_le_one _)

theorem leastPart_le :
    leastPart c ≤ fraction c.red ∧ leastPart c ≤ fraction c.green ∧
      leastPart c ≤ fraction c.blue :=
  ⟨(min_le_left _ _).trans (min_le_left _ _), (min_le_left _ _).trans (min_le_right _ _),
    min_le_right _ _⟩

theorem le_greatestPart :
    fraction c.red ≤ greatestPart c ∧ fraction c.green ≤ greatestPart c ∧
      fraction c.blue ≤ greatestPart c :=
  ⟨(le_max_left _ _).trans (le_max_left _ _), (le_max_right _ _).trans (le_max_left _ _),
    le_max_right _ _⟩

theorem leastPart_eq :
    fraction c.red = leastPart c ∨ fraction c.green = leastPart c ∨
      fraction c.blue = leastPart c := by
  unfold leastPart
  rcases min_choice (min (fraction c.red) (fraction c.green)) (fraction c.blue) with left | right
  · rw [left]
    exact (min_choice _ _).imp Eq.symm fun green => .inl green.symm
  · exact .inr (.inr right.symm)

theorem greatestPart_eq :
    fraction c.red = greatestPart c ∨ fraction c.green = greatestPart c ∨
      fraction c.blue = greatestPart c := by
  unfold greatestPart
  rcases max_choice (max (fraction c.red) (fraction c.green)) (fraction c.blue) with left | right
  · rw [left]
    exact (max_choice _ _).imp Eq.symm fun green => .inl green.symm
  · exact .inr (.inr right.symm)

theorem leastPart_le_greatestPart : leastPart c ≤ greatestPart c :=
  (leastPart_le c).1.trans (le_greatestPart c).1

theorem spread_lt_tiny_iff :
    |greatestPart c - leastPart c| < 1 / 2 ^ 52 ↔ greatestPart c = leastPart c := by
  obtain ⟨v, high⟩ := greatestPart_mem c
  obtain ⟨u, low⟩ := leastPart_mem c
  have ordered := leastPart_le_greatestPart c
  rw [abs_of_nonneg (sub_nonneg.mpr ordered)]
  constructor
  · intro small
    by_contra differ
    have less := lt_of_le_of_ne ordered (Ne.symm differ)
    rw [← low, ← high] at less small
    exact absurd small (not_lt.mpr (tiny_le_sub less))
  · intro same
    rw [same, sub_self]
    norm_num

variable {c} (less : leastPart c < greatestPart c)

include less

theorem isSpread_chromaPart :
    IsSpread (chromaPart c c.red) (chromaPart c c.green) (chromaPart c c.blue) := by
  have positive : 0 < greatestPart c - leastPart c := sub_pos.mpr less
  obtain ⟨low_red, low_green, low_blue⟩ := leastPart_le c
  obtain ⟨red_high, green_high, blue_high⟩ := le_greatestPart c
  have zero {v : UInt8} (isLeast : fraction v = leastPart c) : chromaPart c v = 0 := by
    rw [chromaPart, isLeast, sub_self, zero_div]
  have one {v : UInt8} (isGreatest : fraction v = greatestPart c) : chromaPart c v = 1 := by
    rw [chromaPart, isGreatest, div_self positive.ne']
  have nonneg {v : UInt8} (above : leastPart c ≤ fraction v) : 0 ≤ chromaPart c v :=
    div_nonneg (sub_nonneg.mpr above) positive.le
  have atMost {v : UInt8} (below : fraction v ≤ greatestPart c) : chromaPart c v ≤ 1 :=
    (div_le_one positive).mpr (sub_le_sub_right below _)
  exact {
    nonneg := ⟨nonneg low_red, nonneg low_green, nonneg low_blue⟩
    atMost := ⟨atMost red_high, atMost green_high, atMost blue_high⟩
    none := (leastPart_eq c).imp zero (.imp zero zero)
    all := (greatestPart_eq c).imp one (.imp one one) }

/-- With its part of the chroma over the least channel each channel is itself. -/
theorem toByte_chromaPart
    (v : UInt8) :
    Scalar.toByte (((greatestPart c - leastPart c) * chromaPart c v + leastPart c) * 255) = v := by
  have positive : greatestPart c - leastPart c ≠ 0 := (sub_pos.mpr less).ne'
  rw [chromaPart, mul_div_cancel₀ _ positive, sub_add_cancel, toByte_fraction]

/-- The place of a color is calculated from the differences of its channels. -/
theorem place_chromaPart :
    place (chromaPart c c.red) (chromaPart c c.green) (chromaPart c c.blue) =
      let spread := greatestPart c - leastPart c
      if greatestPart c = fraction c.red then
        Scalar.residue ((fraction c.green - fraction c.blue) / spread) 6
      else if greatestPart c = fraction c.green then
        (fraction c.blue - fraction c.red) / spread + 2
      else (fraction c.red - fraction c.green) / spread + 4 := by
  have positive : greatestPart c - leastPart c ≠ 0 := (sub_pos.mpr less).ne'
  have one (v : UInt8) : chromaPart c v = 1 ↔ greatestPart c = fraction v := by
    rw [chromaPart, div_eq_one_iff_eq positive, sub_left_inj, eq_comm]
  have difference (u v : UInt8) :
      chromaPart c u - chromaPart c v =
        (fraction u - fraction v) / (greatestPart c - leastPart c) := by
    rw [chromaPart, chromaPart, ← sub_div, sub_sub_sub_cancel_right]
  simp only [place, one, difference]

end Parts

/-- Hue, saturation and lightness in exact arithmetic. -/
theorem ofColor_eq
    (c : Color) :
    (ofColor c : Hsl Rat) =
      if greatestPart c = leastPart c then ⟨0, 0, (greatestPart c + leastPart c) / 2⟩
      else
        ⟨place (chromaPart c c.red) (chromaPart c c.green) (chromaPart c c.blue) / 6,
          saturationBetween (leastPart c) (greatestPart c),
          (greatestPart c + leastPart c) / 2⟩ := by
  have unfolded : (ofColor c : Hsl Rat) =
      let spread := greatestPart c - leastPart c
      let lightness := (greatestPart c + leastPart c) / 2
      if |spread| < 1 / 2 ^ 52 then ⟨0, 0, lightness⟩
      else
        ⟨(if greatestPart c = fraction c.red then
            Scalar.residue ((fraction c.green - fraction c.blue) / spread) 6
          else if greatestPart c = fraction c.green then
            (fraction c.blue - fraction c.red) / spread + 2
          else (fraction c.red - fraction c.green) / spread + 4) / 6,
          saturationBetween (leastPart c) (greatestPart c), lightness⟩ := by
    simp only [ofColor, Rational.whole_eq, Rational.magnitude_eq, Rational.greatest_eq,
      Rational.least_eq, Rational.less_eq, Rational.same_eq, Rational.tiny_eq, decide_eq_true_eq,
      Nat.cast_zero, Nat.cast_one, Nat.cast_ofNat]
    rfl
  rw [unfolded]
  simp only [spread_lt_tiny_iff]
  split
  · rfl
  · next differ =>
    rw [place_chromaPart (lt_of_le_of_ne (leastPart_le_greatestPart c) (Ne.symm differ))]

/-- The color of the hue, saturation and lightness of a color is the color itself. -/
theorem toColor_ofColor
    (c : Color) :
    (ofColor c : Hsl Rat).toColor c.alpha = c := by
  rw [ofColor_eq]
  split
  · next gray =>
    -- Every channel is the least one, and the color has no chroma.
    obtain ⟨low_red, low_green, low_blue⟩ := leastPart_le c
    obtain ⟨red_high, green_high, blue_high⟩ := le_greatestPart c
    have same {v : UInt8} (above : leastPart c ≤ fraction v) (below : fraction v ≤ greatestPart c) :
        Scalar.toByte (leastPart c * 255) = v := by
      rw [le_antisymm above (gray ▸ below), toByte_fraction]
    have half : (leastPart c + leastPart c) / 2 = leastPart c := add_self_div_two _
    rw [toColor_eq (le_refl 0) one_pos]
    simp only [gray, half, mul_zero, zero_mul, zero_div, sub_zero, zero_add]
    refine Color.ext_get fun k => ?_
    cases k with
    | red => exact same low_red red_high
    | green => exact same low_green green_high
    | blue => exact same low_blue blue_high
    | alpha => rfl
  · next differ =>
    have less := lt_of_le_of_ne (leastPart_le_greatestPart c) (Ne.symm differ)
    obtain ⟨nonneg, below, shares⟩ := (isSpread_chromaPart less).shares_place
    have chroma := chroma_eq (leastPart_nonneg c) less (greatestPart_le_one c)
    have base : (greatestPart c + leastPart c) / 2 - (greatestPart c - leastPart c) / 2 =
        leastPart c := by
      ring
    generalize place (chromaPart c c.red) (chromaPart c c.green) (chromaPart c c.blue) = t at *
    have whole : t / 6 * 6 = t := div_mul_cancel₀ t (by norm_num)
    have inCircle : 0 ≤ t / 6 ∧ t / 6 < 1 := by
      constructor <;> linarith
    rw [toColor_eq inCircle.1 inCircle.2]
    dsimp only
    rw [whole, shares, chroma, base]
    simp only [toByte_chromaPart less]

/-- Saturation and lightness are parts of the whole. -/
theorem ofColor_mem
    (c : Color) :
    let hsl : Hsl Rat := ofColor c
    (0 ≤ hsl.saturation ∧ hsl.saturation ≤ 1) ∧ 0 ≤ hsl.lightness ∧ hsl.lightness ≤ 1 := by
  have low := leastPart_nonneg c
  have high := greatestPart_le_one c
  have ordered := leastPart_le_greatestPart c
  have lightness : 0 ≤ (greatestPart c + leastPart c) / 2 ∧
      (greatestPart c + leastPart c) / 2 ≤ 1 := by
    constructor <;> linarith
  rw [ofColor_eq]
  split
  · exact ⟨⟨le_rfl, zero_le_one⟩, lightness⟩
  · next differ =>
    exact ⟨saturationBetween_mem low (lt_of_le_of_ne ordered (Ne.symm differ)) high, lightness⟩

/-- One hundred of brightness, saturation and hue change no color. -/
theorem modulate_neutral
    (c : Color) :
    modulate (100 : Rat) 100 100 c = c := by
  obtain ⟨saturation, lightness⟩ := ofColor_mem c
  have kept {x : Rat} (mem : 0 ≤ x ∧ x ≤ 1) : Scalar.clamp (x * 100 / 100) 0 1 = x := by
    rw [mul_div_cancel_right₀ _ (by norm_num), Rational.clamp_eq zero_le_one, min_eq_right mem.2,
      max_eq_right mem.1]
  have neutral : modulate (100 : Rat) 100 100 c = (ofColor c : Hsl Rat).toColor c.alpha := by
    simp only [modulate, Rational.whole_eq, Nat.cast_zero, Nat.cast_one, Nat.cast_ofNat, sub_self,
      zero_div, add_zero, kept saturation, kept lightness]
  rw [neutral, toColor_ofColor]

/-- In exact arithmetic each color is made again of its hue, saturation and lightness, and an image
keeps every pixel under one hundred of each.  This is what the engine is asked for when one hundred
is given, once or for each of the three, and it changes the colors by the same rule in doubles. -/
theorem neutral_modulation_keeps_image :
    (∀ c : Color, (ofColor c : Hsl Rat).toColor c.alpha = c) ∧
      (∀ image : Image, (image.mapColors (modulate (100 : Rat) 100 100)).raster = image.raster) ∧
      ∀ text ∈ ["100", "100,100", "100,100,100"], ∀ view image,
        ImageOperator.modulate view image (.of "-modulate" (some text) none) =
            ImageOperator.work (.modulate 100.0 100.0 100.0) ∧
          PixelEngine.transform image (.modulate 100.0 100.0 100.0) =
            .ok (.mutated (image.mapColors (modulate (100.0 : Float) 100.0 100.0))) := by
  refine ⟨toColor_ofColor, fun image => Raster.map_eq_self fun c _ => modulate_neutral c, ?_⟩
  intro text listed view image
  simp only [List.mem_cons, List.not_mem_nil, or_false] at listed
  obtain rfl | rfl | rfl := listed
  · exact ⟨rfl, rfl⟩
  · exact ⟨rfl, rfl⟩
  · exact ⟨rfl, rfl⟩

/-- A red close to the end of the circle keeps its channels and its coverage. -/
theorem crimson_kept :
    let crimson : Color := ⟨220, 20, 60, 128⟩
    let image : Image := { bitmap := .rgba (.fill ⟨2, 1⟩ crimson) }
    "100" ∈ ["100", "100,100", "100,100,100"] ∧ (ofColor crimson : Hsl Rat).hue = 29 / 30 ∧
      (ofColor crimson : Hsl Rat).toColor 128 = crimson ∧
      (image.mapColors (modulate (100 : Rat) 100 100)).raster = image.raster ∧
      ∀ view, ImageOperator.modulate view image (.of "-modulate" (some "100") none) =
        ImageOperator.work (.modulate 100.0 100.0 100.0) := by
  intro crimson image
  have listed : "100" ∈ ["100", "100,100", "100,100,100"] := by decide
  obtain ⟨colors, images, asked⟩ := neutral_modulation_keeps_image
  refine ⟨listed, by decide +kernel, colors crimson, images image, fun view => ?_⟩
  exact (asked _ listed view image).1

end Hsl
end Darkroom
