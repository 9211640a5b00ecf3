import Darkroom.Geometry.Fit
import Darkroom.Proofs.Geometry.Page
import Darkroom.Proofs.Number.Nearest

/-!
# Sizes that fit a box

A source is resized to a box by one scale, that of one side, so that this side of the result is that
of the box.  The other side is inside the box, or covers it, and rounding does not carry it across,
in exact arithmetic and in doubles.  Sides stop at the greatest word.
-/

namespace Darkroom

open Decimal (saturated whole whole_eq_ofScientific)

/-! ## Sides -/

theorem toNat_saturated
    (n : Nat) :
    (saturated n).toNat = min n (2 ^ 32 - 1) := by
  rw [saturated, UInt32.toNat_ofNat', Nat.mod_eq_of_lt (by omega)]

theorem toNat_max_one
    (n : UInt32) :
    (max 1 n).toNat = max 1 n.toNat := by
  change (if 1 ≤ n then n else 1).toNat = _
  split
  · next positive =>
    have least : 1 ≤ n.toNat := UInt32.le_iff_toNat_le.mp positive
    omega
  · next zero =>
    have less : ¬ 1 ≤ n.toNat := fun positive => zero (UInt32.le_iff_toNat_le.mpr positive)
    change 1 = _
    omega

section Sides

variable {α : Type} [Scalar α] {x y : α} {v u : ℝ} {n : Nat}

/-- The word nearest to a value is on the same side of a whole number as a real one, and is that
number when the real one is close to it. -/
structure RoundsTo (x : α) (v : ℝ) : Prop where
  /-- It is not above. -/
  le : ∀ n : Nat, v ≤ n + 1 / 4 → (Scalar.toWord x).toNat ≤ n
  /-- It is not below, but for the end of its range. -/
  ge : ∀ n : Nat, (n : ℝ) ≤ v + 1 / 4 → saturated n ≤ Scalar.toWord x

theorem RoundsTo.side_le
    (rounds : RoundsTo x v)
    (some : 1 ≤ n)
    (below : v ≤ n + 1 / 4) :
    (max 1 (Scalar.toWord x)).toNat ≤ n := by
  rw [toNat_max_one]
  exact max_le some (rounds.le n below)

theorem RoundsTo.le_side
    (rounds : RoundsTo x v)
    (above : n ≤ v + 1 / 4) :
    saturated n ≤ max 1 (Scalar.toWord x) := by
  have least := UInt32.le_iff_toNat_le.mp (rounds.ge n above)
  rw [UInt32.le_iff_toNat_le, toNat_max_one]
  exact le_max_of_le_right least

theorem RoundsTo.side_eq
    (rounds : RoundsTo x v)
    (some : 1 ≤ n)
    (below : v ≤ n + 1 / 4)
    (above : n ≤ v + 1 / 4) :
    max 1 (Scalar.toWord x) = saturated n := by
  have least := UInt32.le_iff_toNat_le.mp (rounds.le_side above)
  have most := rounds.side_le some below
  have word := (max 1 (Scalar.toWord x)).toNat_lt
  rw [toNat_saturated] at least
  rw [← UInt32.toNat_inj, toNat_saturated]
  omega

/-- A size is inside a box and reaches it on one side, as far as a size can. -/
structure Size.FitsIn (width height : Nat) (size : Size) : Prop where
  /-- There is a pixel each way. -/
  nonempty : 1 ≤ size.width.toNat ∧ 1 ≤ size.height.toNat
  /-- No side is longer than that of the box. -/
  inside : size.width.toNat ≤ width ∧ size.height.toNat ≤ height
  /-- One side is that of the box. -/
  touches : size.width = saturated width ∨ size.height = saturated height

/-- A size covers a box and is no longer on one side, as far as a size can. -/
structure Size.Covers (width height : Nat) (size : Size) : Prop where
  /-- No side is shorter than that of the box. -/
  covers : saturated width ≤ size.width ∧ saturated height ≤ size.height
  /-- One side is that of the box. -/
  touches : size.width = saturated width ∨ size.height = saturated height

variable {width height : Nat} (across : RoundsTo x v) (down : RoundsTo y u) (wide : 1 ≤ width)
  (high : 1 ≤ height)

include across down wide high

theorem nearest_fitsIn
    (inside : v ≤ width + 1 / 4 ∧ u ≤ height + 1 / 4)
    (touches : width ≤ v + 1 / 4 ∨ height ≤ u + 1 / 4) :
    (Size.nearest x y).FitsIn width height where
  nonempty := by
    unfold Size.nearest
    rw [toNat_max_one, toNat_max_one]
    exact ⟨le_max_left 1 _, le_max_left 1 _⟩
  inside := ⟨across.side_le wide inside.1, down.side_le high inside.2⟩
  touches := touches.imp (across.side_eq wide inside.1) (down.side_eq high inside.2)

theorem nearest_covers
    (covers : width ≤ v + 1 / 4 ∧ height ≤ u + 1 / 4)
    (touches : v ≤ width + 1 / 4 ∨ u ≤ height + 1 / 4) :
    (Size.nearest x y).Covers width height where
  covers := ⟨across.le_side covers.1, down.le_side covers.2⟩
  touches := touches.imp (across.side_eq wide · covers.1) (down.side_eq high · covers.2)

end Sides

/-! ## Scales -/

/-- One of two scales, which is good beside the other. -/
def IsChosen (good : ℝ → ℝ → Prop) (s p q : ℝ) : Prop :=
  s = p ∧ good p q ∨ s = q ∧ good q p

/-- A scale is hardly greater than another. -/
def AtMost (slack s r : ℝ) : Prop :=
  s ≤ r * (1 + slack)

/-- A scale is hardly less than another. -/
def AtLeast (slack s r : ℝ) : Prop :=
  r * (1 - slack) ≤ s

section Scales

variable {w h a b s slack : ℝ} (w_pos : 0 < w) (h_pos : 0 < h) (a_small : a * slack ≤ 1 / 4)
  (b_small : b * slack ≤ 1 / 4)

include w_pos h_pos a_small b_small

/-- A source scaled by the lesser scale of both sides is inside the box and touches it. -/
theorem IsChosen.fits
    (least : IsChosen (AtMost slack) s (a / w) (b / h)) :
    (w * s ≤ a + 1 / 4 ∧ h * s ≤ b + 1 / 4) ∧ (a ≤ w * s + 1 / 4 ∨ b ≤ h * s + 1 / 4) := by
  have other {side target : ℝ} (pos : 0 < side) (small : target * slack ≤ 1 / 4)
      (less : AtMost slack s (target / side)) : side * s ≤ target + 1 / 4 :=
    calc side * s ≤ side * (target / side * (1 + slack)) := mul_le_mul_of_nonneg_left less pos.le
      _ = target * (1 + slack) := by rw [← mul_assoc, mul_div_cancel₀ target pos.ne']
      _ ≤ target + 1 / 4 := by linarith
  rcases least with ⟨rfl, less⟩ | ⟨rfl, less⟩
  · have touches := mul_div_cancel₀ a w_pos.ne'
    exact ⟨⟨by linarith, other h_pos b_small less⟩, .inl (by linarith)⟩
  · have touches := mul_div_cancel₀ b h_pos.ne'
    exact ⟨⟨other w_pos a_small less, by linarith⟩, .inr (by linarith)⟩

/-- A source scaled by the greater scale of both sides covers the box and touches it. -/
theorem IsChosen.covers
    (greatest : IsChosen (AtLeast slack) s (a / w) (b / h)) :
    (a ≤ w * s + 1 / 4 ∧ b ≤ h * s + 1 / 4) ∧ (w * s ≤ a + 1 / 4 ∨ h * s ≤ b + 1 / 4) := by
  have other {side target : ℝ} (pos : 0 < side) (small : target * slack ≤ 1 / 4)
      (more : AtLeast slack s (target / side)) : target ≤ side * s + 1 / 4 := by
    have scaled : target * (1 - slack) ≤ side * s :=
      calc target * (1 - slack) = side * (target / side * (1 - slack)) := by
            rw [← mul_assoc, mul_div_cancel₀ target pos.ne']
        _ ≤ side * s := mul_le_mul_of_nonneg_left more pos.le
    linarith
  rcases greatest with ⟨rfl, more⟩ | ⟨rfl, more⟩
  · have touches := mul_div_cancel₀ a w_pos.ne'
    exact ⟨⟨by linarith, other h_pos b_small more⟩, .inl (by linarith)⟩
  · have touches := mul_div_cancel₀ b h_pos.ne'
    exact ⟨⟨other w_pos a_small more, by linarith⟩, .inr (by linarith)⟩

end Scales

/-! ## Boxes -/

namespace Fit

variable {α : Type} [Scalar α]

/-- The sides of a source; an empty one counts as one pixel. -/
def sides (α : Type) [Scalar α] (source : Size) : α × α :=
  (Scalar.whole (max 1 source.width.toNat), Scalar.whole (max 1 source.height.toNat))

/-- The scales that make the sides of a source those of a box. -/
def sideScales (source : Size) (a b : α) : α × α :=
  (a / (sides α source).1, b / (sides α source).2)

/-- Without another modifier, or with the one for a cover, a box gives the scale of one of its
sides. -/
theorem box_eq
    (source : Size)
    (minimum : Bool)
    (a b : α) :
    box source { minimum } (some a) (some b) =
      let choose : α → α → α := if minimum then Scalar.greatest else Scalar.least
      let scale := choose (sideScales source a b).1 (sideScales source a b).2
      Size.nearest ((sides α source).1 * scale) ((sides α source).2 * scale) := by
  cases minimum <;> rfl

/-- With the modifier for another aspect ratio a box is taken as it is. -/
theorem box_aspect
    (source : Size)
    (a b : α) :
    box source { aspect := true } (some a) (some b) = Size.nearest a b :=
  rfl

/-- The width and height of a source as numbers, one at least. -/
noncomputable def numbers (source : Size) : ℝ × ℝ :=
  ((max 1 source.width.toNat : ℕ), (max 1 source.height.toNat : ℕ))

theorem numbers_pos
    (source : Size) :
    0 < (numbers source).1 ∧ 0 < (numbers source).2 :=
  ⟨Nat.cast_pos.mpr (le_max_left 1 _), Nat.cast_pos.mpr (le_max_left 1 _)⟩

/-- The ratios of the sides of a box to those of a source. -/
noncomputable def ratios (source : Size) (width height : Nat) : ℝ × ℝ :=
  (width / (numbers source).1, height / (numbers source).2)

/-- A source is scaled by a scalar as by a number. -/
def Scales (source : Size) (scale : α) (s : ℝ) : Prop :=
  RoundsTo ((sides α source).1 * scale) ((numbers source).1 * s) ∧
    RoundsTo ((sides α source).2 * scale) ((numbers source).2 * s)

/-- One of two scalars is chosen, of numbers of which the one is good beside the other. -/
def Chooses (good : ℝ → ℝ → Prop) (choose : α → α → α) (scales : α × α) (numbers : ℝ × ℝ) : Prop :=
  choose scales.1 scales.2 = scales.1 ∧ good numbers.1 numbers.2 ∨
    choose scales.1 scales.2 = scales.2 ∧ good numbers.2 numbers.1

/-- Scalars calculate with the sides of a box up to a small part. -/
structure Calculates (slack : ℝ) (source : Size) (a b : α) (width height : Nat) : Prop where
  /-- The width of the box is rounded to itself. -/
  across : RoundsTo a width
  /-- The height of the box is rounded to itself. -/
  down : RoundsTo b height
  /-- The scale of the width is the ratio of the widths. -/
  scalesAcross : Scales source (sideScales source a b).1 (ratios source width height).1
  /-- The scale of the height is the ratio of the heights. -/
  scalesDown : Scales source (sideScales source a b).2 (ratios source width height).2
  /-- The lesser scale is one of both, and hardly greater than the other. -/
  least : Chooses (AtMost slack) Scalar.least (sideScales source a b)
    (ratios source width height)
  /-- The greater scale is one of both, and hardly less than the other. -/
  greatest : Chooses (AtLeast slack) Scalar.greatest (sideScales source a b)
    (ratios source width height)

/-- The scale that is chosen. -/
theorem Chooses.exists_scale
    {good : ℝ → ℝ → Prop}
    {choose : α → α → α}
    {source : Size}
    {scales : α × α}
    {numbers : ℝ × ℝ}
    (chooses : Chooses good choose scales numbers)
    (across : Scales source scales.1 numbers.1)
    (down : Scales source scales.2 numbers.2) :
    ∃ s, IsChosen good s numbers.1 numbers.2 ∧ Scales source (choose scales.1 scales.2) s := by
  rcases chooses with ⟨same, isGood⟩ | ⟨same, isGood⟩
  · exact ⟨_, .inl ⟨rfl, isGood⟩, by rwa [same]⟩
  · exact ⟨_, .inr ⟨rfl, isGood⟩, by rwa [same]⟩

/-- The size that comes of a box for each of its three forms: inside it, over it, and the box. -/
structure FitsBox (width height : Nat) (resized : Modifiers → Size) : Prop where
  /-- Without a modifier the size fits in the box. -/
  plain : (resized {}).FitsIn width height
  /-- With the modifier for a cover it covers the box. -/
  minimum : (resized { minimum := true }).Covers width height
  /-- With the modifier for another aspect ratio it is the box. -/
  aspect : resized { aspect := true } = ⟨saturated width, saturated height⟩

theorem Calculates.fitsBox
    {slack : ℝ}
    {source : Size}
    {a b : α}
    {width height : Nat}
    (calculates : Calculates slack source a b width height)
    (wide : 1 ≤ width)
    (high : 1 ≤ height)
    (width_small : width * slack ≤ 1 / 4)
    (height_small : height * slack ≤ 1 / 4) :
    FitsBox width height fun m => box source m (some a) (some b) where
  plain := by
    obtain ⟨s, least, across, down⟩ :=
      calculates.least.exists_scale calculates.scalesAcross calculates.scalesDown
    obtain ⟨inside, touches⟩ :=
      least.fits (numbers_pos source).1 (numbers_pos source).2 width_small height_small
    exact box_eq source false a b ▸ nearest_fitsIn across down wide high inside touches
  minimum := by
    obtain ⟨s, greatest, across, down⟩ :=
      calculates.greatest.exists_scale calculates.scalesAcross calculates.scalesDown
    obtain ⟨covers, touches⟩ :=
      greatest.covers (numbers_pos source).1 (numbers_pos source).2 width_small height_small
    exact box_eq source true a b ▸ nearest_covers across down wide high covers touches
  aspect := by
    have across := calculates.across.side_eq wide (by linarith) (by linarith)
    have down := calculates.down.side_eq high (by linarith) (by linarith)
    rw [box_aspect, Size.nearest, across, down]

/-! ## Exact arithmetic -/

/-- A fraction is rounded to the word nearest to it. -/
theorem roundsTo_rat
    {x : Rat}
    (nonneg : 0 ≤ x) :
    RoundsTo x (x : ℝ) := by
  have word : (Scalar.toWord x).toNat = min ⌊x + 1 / 2⌋.toNat (2 ^ 32 - 1) := by
    change (UInt32.ofNat (min (Rational.nearest x).toNat (2 ^ 32 - 1))).toNat = _
    rw [UInt32.toNat_ofNat', Nat.mod_eq_of_lt (by omega), Rational.nearest, if_pos nonneg]
    rfl
  constructor
  · intro n below
    have upper : x + 1 / 2 < (n + 1 : Int) := by
      rw [← Rat.cast_lt (K := ℝ)]
      push_cast
      linarith
    have floor := Int.floor_lt.mpr upper
    omega
  · intro n above
    have lower : ((n : Int) : Rat) ≤ x + 1 / 2 := by
      rw [← Rat.cast_le (K := ℝ)]
      push_cast
      linarith
    have floor := Int.le_floor.mpr lower
    rw [UInt32.le_iff_toNat_le, toNat_saturated]
    omega

theorem scales_rat
    (source : Size)
    {scale : Rat}
    (nonneg : 0 ≤ scale) :
    Scales source scale (scale : ℝ) := by
  have side (n : Nat) : RoundsTo ((n : Rat) * scale) ((n : ℝ) * (scale : ℝ)) := by
    have rounds := roundsTo_rat (mul_nonneg (Nat.cast_nonneg n) nonneg)
    rwa [Rat.cast_mul, Rat.cast_natCast] at rounds
  exact ⟨side _, side _⟩

/-- Fractions calculate exactly. -/
theorem calculates_rat
    (source : Size)
    (width height : Nat) :
    Calculates 0 source (width : Rat) (height : Rat) width height := by
  let p : Rat := (width : Rat) / (max 1 source.width.toNat : Nat)
  let q : Rat := (height : Rat) / (max 1 source.height.toNat : Nat)
  have p_nonneg : 0 ≤ p := div_nonneg (Nat.cast_nonneg _) (Nat.cast_nonneg _)
  have q_nonneg : 0 ≤ q := div_nonneg (Nat.cast_nonneg _) (Nat.cast_nonneg _)
  have real : ratios source width height = ((p : ℝ), (q : ℝ)) := by
    simp only [ratios, numbers, p, q, Rat.cast_div, Rat.cast_natCast]
  have inOrder {r s : Rat} (le : r ≤ s) : AtMost 0 (r : ℝ) s ∧ AtLeast 0 (s : ℝ) r := by
    rw [AtMost, AtLeast, add_zero, sub_zero, mul_one, mul_one]
    exact ⟨Rat.cast_le.mpr le, Rat.cast_le.mpr le⟩
  refine ⟨?_, ?_, ?_, ?_, ?_, ?_⟩
  · simpa using roundsTo_rat (Nat.cast_nonneg (α := Rat) width)
  · simpa using roundsTo_rat (Nat.cast_nonneg (α := Rat) height)
  · exact real ▸ scales_rat source p_nonneg
  · exact real ▸ scales_rat source q_nonneg
  · rw [real]
    rcases lt_or_ge q p with less | atMost
    · exact .inr ⟨if_pos less, (inOrder less.le).1⟩
    · exact .inl ⟨if_neg (not_lt.mpr atMost), (inOrder atMost).1⟩
  · rw [real]
    rcases lt_or_ge p q with less | atMost
    · exact .inr ⟨if_pos less, (inOrder less.le).2⟩
    · exact .inl ⟨if_neg (not_lt.mpr atMost), (inOrder atMost).2⟩

/-! ## Doubles -/

open Binary (IsAbout inRange_of_le isAbout_ofNat roundoff)

/-- A double that stands for a number is rounded to the word nearest to it. -/
theorem roundsTo_of_isAbout
    {k : Nat}
    {x : Float}
    {v : ℝ}
    (about : IsAbout k .positive x v)
    (few : k ≤ 8) :
    RoundsTo x v where
  le n below := by
    have word := (nearestUInt32 x).toNat_lt
    change (nearestUInt32 x).toNat ≤ n
    rcases le_or_gt (2 ^ 32) n with large | small
    · omega
    · have less : (n : ℝ) ≤ 2 ^ 32 := by exact_mod_cast small.le
      obtain ⟨m, nearest, -, same, -⟩ := about.exists_isNearest few (by linarith)
      have atMost : m ≤ n := nearest.le (by linarith)
      rw [same, UInt32.toNat_ofNat', Nat.mod_eq_of_lt (by omega)]
      omega
  ge n above := by
    change saturated n ≤ nearestUInt32 x
    rw [UInt32.le_iff_toNat_le, toNat_saturated]
    rcases le_or_gt v (2 ^ 33) with small | large
    · obtain ⟨m, nearest, -, same, -⟩ := about.exists_isNearest few small
      have atLeast : n ≤ m := nearest.ge (by linarith)
      rw [same, UInt32.toNat_ofNat', Nat.mod_eq_of_lt (by omega)]
      omega
    · rw [about.nearestUInt32_of_large (by omega) large.le]
      exact min_le_right n _

/-- The part of a scale that may be lost in doubles: less than that of three roundings. -/
noncomputable def slack : ℝ :=
  3 • roundoff

section Float

variable {n p : Nat} (n_pos : 0 < n) (n_less : n < 2 ^ 32) (p_pos : 0 < p) (p_less : p < 2 ^ 32)

include n_pos n_less p_pos p_less

/-- The ratio of two sides is not far from one. -/
theorem ratio_mem :
    1 / 2 ^ 32 ≤ (n : ℝ) / p ∧ (n : ℝ) / p ≤ 2 ^ 32 := by
  have n_least : (1 : ℝ) ≤ n := by exact_mod_cast n_pos
  have p_least : (1 : ℝ) ≤ p := by exact_mod_cast p_pos
  have n_most : (n : ℝ) ≤ 2 ^ 32 := by exact_mod_cast n_less.le
  have p_most : (p : ℝ) ≤ 2 ^ 32 := by exact_mod_cast p_less.le
  constructor
  · exact div_le_div₀ (by linarith) n_least (by linarith) p_most
  · exact (div_le_self (by linarith) p_least).trans n_most

theorem isAbout_ratio :
    IsAbout 1 .positive (Float.ofNat n / Float.ofNat p) ((n : ℝ) / p) := by
  obtain ⟨lower, upper⟩ := ratio_mem n_pos n_less p_pos p_less
  refine (isAbout_ofNat (by omega)).div_ofNat p_pos (by omega) (by decide) fun _ => ?_
  exact inRange_of_le 32 (by decide) lower upper

end Float

/-- A double that stands for a ratio of sides up to one rounding scales a source. -/
theorem scales_float
    (source : Size)
    {scale : Float}
    {s : ℝ}
    (about : IsAbout 1 .positive scale s)
    (lower : 1 / 2 ^ 32 ≤ s)
    (upper : s ≤ 2 ^ 32) :
    Scales source scale s := by
  have side {n : Nat} (pos : 0 < n) (less : n < 2 ^ 32) :
      RoundsTo (Float.ofNat n * scale) ((n : ℝ) * s) := by
    have least : (1 : ℝ) ≤ n := by exact_mod_cast pos
    have most : (n : ℝ) ≤ 2 ^ 32 := by exact_mod_cast less.le
    refine roundsTo_of_isAbout (k := 2) ?_ (by decide)
    refine (isAbout_ofNat (by omega)).mul about (by decide) fun _ => ?_
    refine inRange_of_le 64 (by decide) ?_ ?_
    · calc (1 : ℝ) / 2 ^ 64 ≤ 1 * (1 / 2 ^ 32) := by norm_num
        _ ≤ n * s := mul_le_mul least lower (by norm_num) (by linarith)
    · calc (n : ℝ) * s ≤ 2 ^ 32 * 2 ^ 32 := mul_le_mul most upper (by linarith) (by norm_num)
        _ = 2 ^ 64 := by norm_num
  have width := source.width.toNat_lt
  have height := source.height.toNat_lt
  exact ⟨side (by omega) (by omega), side (by omega) (by omega)⟩

/-- Numbers whose doubles may be in one order are in it, but for a small part. -/
theorem inOrder_of_near
    {v w : ℝ}
    (v_nonneg : 0 ≤ v)
    (w_nonneg : 0 ≤ w)
    (near : v * (1 - roundoff) ^ 1 ≤ w * (1 + roundoff) ^ 1) :
    AtMost slack v w ∧ AtLeast slack w v := by
  rw [pow_one, pow_one] at near
  have above : 1 + roundoff ≤ (1 + slack) * (1 - roundoff) := by norm_num [roundoff, slack]
  have below : (1 - slack) * (1 + roundoff) ≤ 1 - roundoff := by norm_num [roundoff, slack]
  constructor
  · refine le_of_mul_le_mul_right ?_ (show 0 < 1 - roundoff by norm_num [roundoff])
    calc v * (1 - roundoff) ≤ w * (1 + roundoff) := near
      _ ≤ w * ((1 + slack) * (1 - roundoff)) := mul_le_mul_of_nonneg_left above w_nonneg
      _ = w * (1 + slack) * (1 - roundoff) := (mul_assoc w _ _).symm
  · refine le_of_mul_le_mul_right ?_ (show 0 < 1 + roundoff by norm_num [roundoff])
    calc v * (1 - slack) * (1 + roundoff) = v * ((1 - slack) * (1 + roundoff)) := mul_assoc v _ _
      _ ≤ v * (1 - roundoff) := mul_le_mul_of_nonneg_left below v_nonneg
      _ ≤ w * (1 + roundoff) := near

/-- Doubles calculate with words up to a small part. -/
theorem calculates_float
    (source : Size)
    {width height : Nat}
    (wide : 1 ≤ width)
    (high : 1 ≤ height)
    (width_less : width < 2 ^ 32)
    (height_less : height < 2 ^ 32) :
    Calculates slack source (Float.ofNat width) (Float.ofNat height) width height := by
  have sourceWidth : max 1 source.width.toNat < 2 ^ 32 := max_lt (by decide) source.width.toNat_lt
  have sourceHeight : max 1 source.height.toNat < 2 ^ 32 :=
    max_lt (by decide) source.height.toNat_lt
  have p_mem := ratio_mem wide width_less (le_max_left 1 _) sourceWidth
  have q_mem := ratio_mem high height_less (le_max_left 1 _) sourceHeight
  have p_about := isAbout_ratio wide width_less (le_max_left 1 _) sourceWidth
  have q_about := isAbout_ratio high height_less (le_max_left 1 _) sourceHeight
  have inOrder := inOrder_of_near p_about.nonneg q_about.nonneg
  have inOrder' := inOrder_of_near q_about.nonneg p_about.nonneg
  exact {
    across := roundsTo_of_isAbout (isAbout_ofNat (by omega)) (by decide)
    down := roundsTo_of_isAbout (isAbout_ofNat (by omega)) (by decide)
    scalesAcross := scales_float source p_about p_mem.1 p_mem.2
    scalesDown := scales_float source q_about q_mem.1 q_mem.2
    least := (p_about.leastFloat_cases q_about).imp
      (And.imp_right fun near => (inOrder near).1) (And.imp_right fun near => (inOrder' near).1)
    greatest := (p_about.greatestFloat_cases q_about).imp
      (And.imp_right fun near => (inOrder' near).2) (And.imp_right fun near => (inOrder near).2) }

/-! ## Texts of boxes -/

/-- The marks that stand behind the size of a box, with their modifiers. -/
def boxMarks : List (String × Modifiers) :=
  [("", {}), ("^", { minimum := true }), ("!", { aspect := true })]

/-- The region that a size and a mark write. -/
def boxRegion (width height : Nat) (m : Modifiers) : Region :=
  { width := some (whole width), height := some (whole height), modifiers := m }

theorem parse?_boxText
    (width height : Nat)
    {mark : String × Modifiers}
    (mem : mark ∈ boxMarks) :
    Region.parse? (sizeText width height ++ mark.1) = some (boxRegion width height mark.2) := by
  have read : ∀ mark ∈ boxMarks, Modifiers.split mark.1.toList = ([], mark.2) := by decide
  rw [Region.parse?, String.toList_append]
  exact ofChars?_sizeText_append width height (read mark mem)

theorem resizeDimensions_boxRegion
    (source : Size)
    (width height : Nat)
    {m : Modifiers}
    (noArea : m.area = false) :
    resizeDimensions source (boxRegion width height m) =
      box source m (some (whole width)) (some (whole height)) :=
  if_neg (by rw [boxRegion, noArea]; exact Bool.false_ne_true)

/-- A box that a text writes is calculated with in doubles. -/
theorem fitsBox_of_text
    (source : Size)
    {width height : Nat}
    (wide : 1 ≤ width)
    (high : 1 ≤ height)
    (width_less : width < 2 ^ 32)
    (height_less : height < 2 ^ 32) :
    FitsBox width height fun m => resizeDimensions source (boxRegion width height m) := by
  have small {n : Nat} (less : n < 2 ^ 32) : (n : ℝ) * slack ≤ 1 / 4 := by
    have word : (n : ℝ) ≤ 2 ^ 32 := by exact_mod_cast less.le
    calc (n : ℝ) * slack ≤ 2 ^ 32 * slack :=
          mul_le_mul_of_nonneg_right word (by norm_num [slack, roundoff])
      _ ≤ 1 / 4 := by norm_num [slack, roundoff]
  have exact_whole {n : Nat} (pos : 1 ≤ n) (less : n < 2 ^ 32) : whole n = Float.ofNat n :=
    whole_eq_ofScientific pos (((Nat.log2_lt (Nat.ne_of_gt pos)).mpr less).trans (by decide))
  obtain ⟨plain, minimum, aspect⟩ := (calculates_float source wide high width_less
    height_less).fitsBox wide high (small width_less) (small height_less)
  rw [← exact_whole wide width_less, ← exact_whole high height_less] at plain minimum aspect
  constructor
  · rwa [resizeDimensions_boxRegion source width height rfl]
  · rwa [resizeDimensions_boxRegion source width height rfl]
  · rwa [resizeDimensions_boxRegion source width height rfl]

/-- A size written for a box is read as the box in each of its forms, and a source that is resized
to it in exact arithmetic fits in it, covers it or is it, whichever the form asks for; in doubles it
does so as well when the sides of the box are words. -/
theorem resized_source_fits_box
    (source : Size)
    (width height : Nat)
    (wide : 1 ≤ width)
    (high : 1 ≤ height) :
    (∀ mark ∈ boxMarks,
        Region.parse? (sizeText width height ++ mark.1) =
          some (boxRegion width height mark.2)) ∧
      FitsBox width height (fun m => box source m (some (width : Rat)) (some (height : Rat))) ∧
      (width < 2 ^ 32 → height < 2 ^ 32 →
        FitsBox width height fun m => resizeDimensions source (boxRegion width height m)) := by
  refine ⟨fun mark => parse?_boxText width height, ?_, fitsBox_of_text source wide high⟩
  exact (calculates_rat source width height).fitsBox wide high (by norm_num) (by norm_num)

/-- A photograph in a box of 400 by 500 pixels is 400 by 300; over it, rounded up, 667 by 500. -/
theorem photograph_fits_box :
    (1 ≤ 400 ∧ 1 ≤ 500) ∧ 400 < 2 ^ 32 ∧ 500 < 2 ^ 32 ∧
      FitsBox 400 500
        (fun m => box ⟨800, 600⟩ m (some ((400 : Nat) : Rat)) (some ((500 : Nat) : Rat))) ∧
      FitsBox 400 500 (fun m => resizeDimensions ⟨800, 600⟩ (boxRegion 400 500 m)) ∧
      box ⟨800, 600⟩ {} (some ((400 : Nat) : Rat)) (some ((500 : Nat) : Rat)) = ⟨400, 300⟩ ∧
      box ⟨800, 600⟩ { minimum := true } (some ((400 : Nat) : Rat)) (some ((500 : Nat) : Rat)) =
        ⟨667, 500⟩ := by
  have resized := resized_source_fits_box ⟨800, 600⟩ 400 500 (by decide) (by decide)
  exact ⟨by decide, by decide, by decide, resized.2.1, resized.2.2 (by decide) (by decide),
    by decide +kernel, by decide +kernel⟩

/-- Sides that are no words are cut to the greatest one, so that in each form the size that comes of
them is shorter than the box. -/
theorem long_box_is_cut :
    (∀ mark ∈ boxMarks,
        let long : Rat := (4294967296 : Nat)
        let resized := box ⟨1, 1⟩ mark.2 (some long) (some long)
        resized = ⟨4294967295, 4294967295⟩ ∧
          resized.width.toNat < 4294967296 ∧ resized.height.toNat < 4294967296) ∧
      (Region.parse? "4294967296x4294967296!").map (resizeDimensions ⟨1, 1⟩) =
        some ⟨4294967295, 4294967295⟩ := by
  decide +kernel

end Fit

end Darkroom
