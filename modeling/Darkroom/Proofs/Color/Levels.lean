import Darkroom.Pixels.Tone
import Darkroom.Proofs.Number.Rational

/-!
# Levels of channel values

The curve with a number of levels takes each byte to the nearest level.  Levels are so far apart,
and the roundings so few, that exactly so many bytes come out as there are levels, as long as there
are no more levels than bytes.  Whatever their number, in fractions and in doubles, the order of
bytes is kept, and what comes out stays as it is: either the bytes are finer than the levels, and
each has the level again that it comes from, or the levels are finer, and every byte stays.
-/

namespace Darkroom
namespace Tone

open Binary (IsAbout IsNearest isAbout_ofNat inRange_of_le ofNat_sub_one)

/-- A part of a number, scaled to another, is computed with two roundings. -/
theorem isAbout_scaled
    {part total scale : Nat}
    (below : part ≤ total)
    (total_pos : 1 ≤ total)
    (total_lt : total < 2 ^ 32)
    (scale_pos : 1 ≤ scale)
    (scale_lt : scale < 2 ^ 32) :
    IsAbout 2 .positive (Float.ofNat part / Float.ofNat total * Float.ofNat scale)
      (part / total * scale) := by
  have positive : (0 : ℝ) < total := Nat.cast_pos.mpr total_pos
  have many : (total : ℝ) ≤ 2 ^ 32 := by exact_mod_cast total_lt.le
  have atLeast : (1 : ℝ) ≤ scale := by exact_mod_cast scale_pos
  have atMost : (scale : ℝ) ≤ 2 ^ 32 := by exact_mod_cast scale_lt.le
  have share : (part : ℝ) / total ≤ 1 := (div_le_one positive).mpr (by exact_mod_cast below)
  have least (nonzero : 0 < (part : ℝ)) : 1 / 2 ^ 32 ≤ (part : ℝ) / total :=
    div_le_div₀ (Nat.cast_nonneg part) (by exact_mod_cast nonzero) positive many
  have fraction : IsAbout 1 .positive (Float.ofNat part / Float.ofNat total) (part / total) :=
    (isAbout_ofNat (by omega)).div_ofNat total_pos (by omega) (by decide) fun nonzero =>
      inRange_of_le 32 (by decide) (least nonzero) (share.trans (by norm_num))
  refine fraction.mul (isAbout_ofNat (by omega)) (by decide) fun nonzero => ?_
  have lower := least <| (Nat.cast_nonneg part).lt_of_ne fun zero => by
    rw [← zero, zero_div, zero_mul] at nonzero
    exact lt_irrefl 0 nonzero
  refine inRange_of_le 32 (by decide) ?_ ?_
  · calc (1 : ℝ) / 2 ^ 32 = 1 / 2 ^ 32 * 1 := (mul_one _).symm
      _ ≤ part / total * scale := mul_le_mul lower atLeast zero_le_one (by positivity)
  · calc (part : ℝ) / total * scale ≤ 1 * 2 ^ 32 :=
          mul_le_mul share atMost (by positivity) zero_le_one
      _ = 2 ^ 32 := one_mul _

/-- Rounded it is one of the whole numbers up to the scale, and nearest to the exact one. -/
theorem exists_nearest_scaled
    {part total scale : Nat}
    (below : part ≤ total)
    (total_pos : 1 ≤ total)
    (total_lt : total < 2 ^ 32)
    (scale_pos : 1 ≤ scale)
    (scale_lt : scale < 2 ^ 32) :
    ∃ n, IsNearest n (part / total * scale) ∧ n ≤ scale ∧
      nearestByte (Float.ofNat part / Float.ofNat total * Float.ofNat scale) =
        UInt8.ofNat (min n 255) ∧
      nearestFloat (Float.ofNat part / Float.ofNat total * Float.ofNat scale) = Float.ofNat n := by
  have atMost : (scale : ℝ) ≤ 2 ^ 32 := by exact_mod_cast scale_lt.le
  have share : (part : ℝ) / total ≤ 1 :=
    (div_le_one (Nat.cast_pos.mpr total_pos)).mpr (by exact_mod_cast below)
  have less : (part : ℝ) / total * scale ≤ scale :=
    mul_le_of_le_one_left (Nat.cast_nonneg scale) share
  obtain ⟨n, nearest, byte, -, double⟩ :=
    (isAbout_scaled below total_pos total_lt scale_pos scale_lt).exists_isNearest (by decide)
      (by linarith)
  exact ⟨n, nearest, nearest.le (by linarith), byte, double⟩

/-- The byte of a level, when there are so many steps from the least to the greatest. -/
def levelByte (steps level : Nat) : UInt8 :=
  nearestByte (Float.ofNat level / Float.ofNat steps * Float.ofNat 255)

/-- A byte becomes the byte of the level nearest to it. -/
theorem exists_onByte_posterize
    {steps : Nat}
    (steps_pos : 1 ≤ steps)
    (steps_lt : steps < 2 ^ 32)
    (v : UInt8) :
    ∃ level, IsNearest level (v.toNat / 255 * steps) ∧ level ≤ steps ∧
      onByte (posterize (Float.ofNat steps)) v = levelByte steps level := by
  obtain ⟨level, nearest, below, -, double⟩ := exists_nearest_scaled
    (show v.toNat ≤ 255 from Nat.lt_succ_iff.mp v.toNat_lt) (by decide) (by decide) steps_pos
    steps_lt
  rw [Nat.cast_ofNat] at nearest
  refine ⟨level, nearest, below, ?_⟩
  change nearestByte (nearestFloat (Float.ofNat v.toNat / Float.ofNat 255 * Float.ofNat steps) /
    Float.ofNat steps * Float.ofNat 255) = _
  rw [double, levelByte]

/-- The byte of a level is nearest to its share of all bytes. -/
theorem isNearest_levelByte
    {steps level : Nat}
    (steps_pos : 1 ≤ steps)
    (steps_lt : steps < 2 ^ 32)
    (below : level ≤ steps) :
    IsNearest (levelByte steps level).toNat (level / steps * 255) := by
  obtain ⟨n, nearest, n_le, byte, -⟩ := exists_nearest_scaled below steps_pos steps_lt
    (show 1 ≤ 255 by decide) (by decide)
  rw [Nat.cast_ofNat] at nearest
  rwa [levelByte, byte, min_eq_left n_le, UInt8.toNat_ofNat', Nat.mod_eq_of_lt (by omega)]

section Levels

variable {steps : Nat} (steps_pos : 1 ≤ steps) (steps_le : steps ≤ 255)

include steps_pos steps_le

/-- A higher level has a greater byte: either the levels are all bytes, or they are apart by more
than one even after the roundings. -/
theorem levelByte_lt
    {low high : Nat}
    (less : low < high)
    (below : high ≤ steps) :
    (levelByte steps low).toNat < (levelByte steps high).toNat := by
  have nearest := isNearest_levelByte steps_pos (by omega) (less.le.trans below)
  have nearest' := isNearest_levelByte steps_pos (by omega) below
  rcases steps_le.eq_or_lt with rfl | fewer
  · have exact (level : Nat) : (level : ℝ) / (255 : Nat) * 255 = level := by
      rw [Nat.cast_ofNat]
      exact div_mul_cancel₀ _ (by norm_num)
    rw [exact] at nearest nearest'
    calc (levelByte 255 low).toNat ≤ low := nearest.le (by linarith)
      _ < high := less
      _ ≤ (levelByte 255 high).toNat := nearest'.ge (by linarith)
  · have apart : (low : ℝ) / steps * 255 + 255 / 254 ≤ high / steps * 255 := by
      have positive : (0 : ℝ) < steps := Nat.cast_pos.mpr steps_pos
      have few : (steps : ℝ) ≤ 254 := by exact_mod_cast Nat.le_of_lt_succ fewer
      have next : (low : ℝ) + 1 ≤ high := by exact_mod_cast less
      calc (low : ℝ) / steps * 255 + 255 / 254
          ≤ low / steps * 255 + 255 / steps := by gcongr
        _ = (low + 1) / steps * 255 := by ring
        _ ≤ high / steps * 255 := by gcongr
    have upper := nearest.upper
    have lower := nearest'.lower
    have ordered : ((levelByte steps low).toNat : ℝ) < (levelByte steps high).toNat := by linarith
    exact_mod_cast ordered

/-- Every level is the nearest one of some byte, which is the nearest one to its share. -/
theorem exists_onByte_eq_levelByte
    {level : Nat}
    (below : level ≤ steps) :
    ∃ v, onByte (posterize (Float.ofNat steps)) v = levelByte steps level := by
  let byte : Nat := (510 * level + steps) / (2 * steps)
  have byte_lt : byte < 256 := by
    rw [Nat.div_lt_iff_lt_mul (by omega)]
    omega
  have close : |(byte : ℝ) / 255 * steps - level| + 1 / 2 ^ 12 < 1 / 2 := by
    rcases steps_le.eq_or_lt with rfl | fewer
    · have same : byte = level := by omega
      rw [same, Nat.cast_ofNat, div_mul_cancel₀ _ (by norm_num), sub_self]
      norm_num
    · have few : (steps : ℝ) ≤ 254 := by exact_mod_cast Nat.le_of_lt_succ fewer
      have atMost : (byte : ℝ) * (2 * steps) ≤ 510 * level + steps := by
        exact_mod_cast Nat.div_mul_le_self (510 * level + steps) (2 * steps)
      have atLeast : (510 : ℝ) * level + steps < (byte + 1) * (2 * steps) := by
        exact_mod_cast (Nat.div_lt_iff_lt_mul (by omega)).mp (Nat.lt_succ_self byte)
      have half : |(byte : ℝ) / 255 * steps - level| ≤ steps / 510 := by
        rw [abs_le]
        constructor <;> linarith
      linarith
  obtain ⟨other, nearest, -, mapped⟩ :=
    exists_onByte_posterize steps_pos (by omega) (UInt8.ofNat byte)
  rw [UInt8.toNat_ofNat', Nat.mod_eq_of_lt byte_lt] at nearest
  obtain ⟨lower, upper⟩ := abs_lt.mp (lt_sub_iff_add_lt.mpr close)
  obtain rfl : other = level :=
    le_antisymm (nearest.le (by linarith)) (nearest.ge (by linarith))
  exact ⟨_, mapped⟩

/-- As many bytes come out as there are levels. -/
theorem card_image_posterize :
    (Finset.univ.image (onByte (posterize (Float.ofNat steps)))).card = steps + 1 := by
  have image : Finset.univ.image (onByte (posterize (Float.ofNat steps))) =
      (Finset.range (steps + 1)).image (levelByte steps) := by
    ext byte
    simp only [Finset.mem_image, Finset.mem_univ, true_and, Finset.mem_range]
    constructor
    · rintro ⟨v, rfl⟩
      obtain ⟨level, -, below, same⟩ := exists_onByte_posterize steps_pos (by omega) v
      exact ⟨level, Nat.lt_succ_iff.mpr below, same.symm⟩
    · rintro ⟨level, below, rfl⟩
      exact exists_onByte_eq_levelByte steps_pos steps_le (Nat.lt_succ_iff.mp below)
  have injective : Set.InjOn (levelByte steps) (Finset.range (steps + 1)) := by
    have ascending : StrictMonoOn (fun level => (levelByte steps level).toNat)
        (Finset.range (steps + 1)) := by
      intro low _ high member less
      rw [Finset.mem_coe, Finset.mem_range] at member
      exact levelByte_lt steps_pos steps_le less (Nat.lt_succ_iff.mp member)
    intro low member high member' same
    exact ascending.injOn member member' (congrArg UInt8.toNat same)
  rw [image, Finset.card_image_of_injOn injective, Finset.card_range]

end Levels

/-! ## Nearest levels -/

/-- A table takes each byte to the byte of a level that is nearest to it, of so many steps from the
least to the greatest. -/
structure TakesLevels (steps : Nat) (byte : Nat → UInt8) (f : UInt8 → UInt8) : Prop where
  /-- The byte of a level is nearest to its share of all bytes. -/
  nearest : ∀ level ≤ steps, IsNearest (byte level).toNat (level / steps * 255)
  /-- A byte becomes that of the level nearest to it. -/
  mapped : ∀ v : UInt8, ∃ level ≤ steps,
    IsNearest level (v.toNat / 255 * steps) ∧ f v = byte level

/-- The level nearest to a byte is apart from it by half a step, if by more than the roundings. -/
theorem abs_sub_le_of_isNearest
    {steps level v : Nat}
    (steps_pos : 1 ≤ steps)
    (nearest : IsNearest level (v / 255 * steps)) :
    |(level : ℝ) / steps * 255 - v| ≤ (1 / 2 + 1 / 2 ^ 12) * (255 / steps) := by
  have positive : (0 : ℝ) < steps := Nat.cast_pos.mpr steps_pos
  have share : (v : ℝ) = v / 255 * steps * (255 / steps) := by field_simp
  have scaled : (level : ℝ) / steps * 255 = level * (255 / steps) := by ring
  have factor : (0 : ℝ) < 255 / steps := by positivity
  have close : |(level : ℝ) - v / 255 * steps| ≤ 1 / 2 + 1 / 2 ^ 12 := by
    have lower := nearest.lower
    have upper := nearest.upper
    rw [abs_le]
    constructor <;> linarith
  calc |(level : ℝ) / steps * 255 - v|
      = |((level : ℝ) - v / 255 * steps) * (255 / steps)| := by rw [sub_mul, ← share, scaled]
    _ = |(level : ℝ) - v / 255 * steps| * (255 / steps) := by rw [abs_mul, abs_of_pos factor]
    _ ≤ (1 / 2 + 1 / 2 ^ 12) * (255 / steps) := mul_le_mul_of_nonneg_right close factor.le

namespace TakesLevels

variable {steps : Nat} {byte : Nat → UInt8} {f : UInt8 → UInt8} (steps_pos : 1 ≤ steps)
  (takes : TakesLevels steps byte f)

include takes in
/-- No more values come out than there are levels. -/
theorem card_image_le :
    (Finset.univ.image f).card ≤ steps + 1 := by
  have subset : Finset.univ.image f ⊆ (Finset.range (steps + 1)).image byte := by
    intro value member
    obtain ⟨v, -, rfl⟩ := Finset.mem_image.mp member
    obtain ⟨level, below, -, same⟩ := takes.mapped v
    exact Finset.mem_image.mpr ⟨level, Finset.mem_range.mpr (Nat.lt_succ_of_le below), same.symm⟩
  calc (Finset.univ.image f).card ≤ ((Finset.range (steps + 1)).image byte).card :=
        Finset.card_le_card subset
    _ ≤ (Finset.range (steps + 1)).card := Finset.card_image_le
    _ = steps + 1 := Finset.card_range _

include steps_pos takes

/-- Levels that are finer than the bytes leave every byte. -/
theorem eq_self
    (fine : 256 ≤ steps)
    (v : UInt8) :
    f v = v := by
  obtain ⟨level, below, nearest, same⟩ := takes.mapped v
  have few : (255 : ℝ) / steps ≤ 255 / 256 :=
    div_le_div_of_nonneg_left (by norm_num) (by norm_num) (by exact_mod_cast fine)
  have close := abs_le.mp (abs_sub_le_of_isNearest steps_pos nearest)
  have isNearest := takes.nearest level below
  have lower := isNearest.lower
  have upper := isNearest.upper
  rw [same, ← UInt8.toNat_inj]
  have notMore : (byte level).toNat < v.toNat + 1 := by
    rw [← Nat.cast_lt (α := ℝ)]
    push_cast
    linarith
  have notLess : v.toNat < (byte level).toNat + 1 := by
    rw [← Nat.cast_lt (α := ℝ)]
    push_cast
    linarith
  omega

/-- Bytes that are finer than the levels have the level again that they come from. -/
theorem eq_of_level
    (coarse : steps ≤ 255)
    {level : Nat}
    (below : level ≤ steps) :
    f (byte level) = byte level := by
  obtain ⟨again, -, nearest, same⟩ := takes.mapped (byte level)
  have isNearest := takes.nearest level below
  rw [same]
  suffices again = level by rw [this]
  rcases coarse.eq_or_lt with rfl | fewer
  · -- Levels are bytes here, and half a step is half of one: both roundings stay where they are.
    rw [Nat.cast_ofNat, div_mul_cancel₀ _ (by norm_num)] at isNearest nearest
    have stays : (byte level).toNat = level :=
      le_antisymm (isNearest.le (by linarith)) (isNearest.ge (by linarith))
    rw [stays] at nearest
    exact le_antisymm (nearest.le (by linarith)) (nearest.ge (by linarith))
  · have positive : (0 : ℝ) < steps := Nat.cast_pos.mpr steps_pos
    have factor : (255 : ℝ) / 254 ≤ 255 / steps :=
      div_le_div_of_nonneg_left (by norm_num) positive (by exact_mod_cast Nat.le_of_lt_succ fewer)
    have close := abs_le.mp (abs_sub_le_of_isNearest steps_pos nearest)
    have lower := isNearest.lower
    have upper := isNearest.upper
    have scaled (n : Nat) : (n : ℝ) / steps * 255 = n * (255 / steps) := by ring
    rw [scaled] at close lower upper
    generalize (255 : ℝ) / steps = step at factor close lower upper
    have notMore : again < level + 1 := by
      rw [← Nat.cast_lt (α := ℝ)]
      push_cast
      nlinarith
    have notLess : level < again + 1 := by
      rw [← Nat.cast_lt (α := ℝ)]
      push_cast
      nlinarith
    omega

/-- A second time nothing changes. -/
theorem idempotent
    (v : UInt8) :
    f (f v) = f v := by
  rcases Nat.lt_or_ge steps 256 with coarse | fine
  · obtain ⟨level, below, -, same⟩ := takes.mapped v
    rw [same]
    exact takes.eq_of_level steps_pos (Nat.le_of_lt_succ coarse) below
  · exact takes.eq_self steps_pos fine (f v)

/-- A higher level has no smaller byte. -/
theorem byte_mono
    (coarse : steps ≤ 255)
    {low high : Nat}
    (less : low < high)
    (below : high ≤ steps) :
    (byte low).toNat ≤ (byte high).toNat := by
  have positive : (0 : ℝ) < steps := Nat.cast_pos.mpr steps_pos
  refine (takes.nearest low (less.le.trans below)).mono (takes.nearest high below) ?_
  have step : (1 : ℝ) ≤ 255 / steps := (one_le_div positive).mpr (by exact_mod_cast coarse)
  have next : (low : ℝ) + 1 ≤ high := by exact_mod_cast less
  calc (low : ℝ) / steps * 255 + 1 / 2 ^ 11 < low / steps * 255 + 1 := by norm_num
    _ ≤ low / steps * 255 + 255 / steps := by gcongr
    _ = (low + 1) / steps * 255 := by ring
    _ ≤ high / steps * 255 := by gcongr

/-- The order of bytes is kept. -/
theorem mono
    {u v : UInt8}
    (atMost : u.toNat ≤ v.toNat) :
    (f u).toNat ≤ (f v).toNat := by
  rcases Nat.lt_or_ge steps 256 with coarse | fine
  · rcases atMost.eq_or_lt with same | less
    · rw [UInt8.toNat_inj.mp same]
    · obtain ⟨low, -, nearest, same⟩ := takes.mapped u
      obtain ⟨high, below, nearest', same'⟩ := takes.mapped v
      have positive : (1 : ℝ) ≤ steps := by exact_mod_cast steps_pos
      have next : (u.toNat : ℝ) + 1 ≤ v.toNat := by exact_mod_cast less
      have ordered : low ≤ high := by
        refine nearest.mono nearest' ?_
        calc (u.toNat : ℝ) / 255 * steps + 1 / 2 ^ 11 < u.toNat / 255 * steps + 1 / 255 * 1 := by
              norm_num
          _ ≤ u.toNat / 255 * steps + 1 / 255 * steps := by gcongr
          _ = (u.toNat + 1) / 255 * steps := by ring
          _ ≤ v.toNat / 255 * steps := by gcongr
      rw [same, same']
      rcases ordered.eq_or_lt with rfl | lower
      · exact le_rfl
      · exact takes.byte_mono steps_pos (Nat.le_of_lt_succ coarse) lower below
  · rwa [takes.eq_self steps_pos fine, takes.eq_self steps_pos fine]

end TakesLevels

/-! ## Tables with levels -/

/-- A table with a number of levels, at least two: it leaves no more values than levels, leaves
those as they are, and keeps the order. -/
structure Posterizes (levels : Nat) (f : UInt8 → UInt8) : Prop where
  /-- There are no more values than levels. -/
  few : (Finset.univ.image f).card ≤ max levels 2
  /-- A second time nothing changes. -/
  idempotent : ∀ v, f (f v) = f v
  /-- The order of values is kept. -/
  mono : ∀ u v : UInt8, u ≤ v → f u ≤ f v

theorem TakesLevels.posterizes
    {levels : Nat}
    {byte : Nat → UInt8}
    {f : UInt8 → UInt8}
    (takes : TakesLevels (max levels 2 - 1) byte f) :
    Posterizes levels f where
  few := takes.card_image_le.trans (by omega)
  idempotent := takes.idempotent (by omega)
  mono u v atMost := UInt8.le_iff_toNat_le.mpr
    (takes.mono (by omega) (UInt8.le_iff_toNat_le.mp atMost))

/-- In exact arithmetic a byte becomes that of the level nearest to it. -/
theorem takesLevels_rat
    {steps : Nat}
    (steps_pos : 1 ≤ steps) :
    TakesLevels steps (fun level => Scalar.toByte ((level : Rat) / steps * 255))
      (onByte (posterize (steps : Rat))) where
  nearest level below := by
    have share : (level : Rat) / steps ≤ 1 :=
      (div_le_one (Nat.cast_pos.mpr steps_pos)).mpr (by exact_mod_cast below)
    have nearest := Rational.isNearest_toByte
      (show 0 ≤ (level : Rat) / steps * 255 by positivity) (by linarith)
    push_cast at nearest
    exact nearest
  mapped v := by
    have few : v.toNat ≤ 255 := Nat.lt_succ_iff.mp v.toNat_lt
    obtain ⟨whole, nearest⟩ := Rational.isNearest_nearest
      (show 0 ≤ (v.toNat : Rat) / 255 * steps by positivity)
    push_cast at nearest
    refine ⟨_, nearest.le ?_, nearest, ?_⟩
    · have share : (v.toNat : ℝ) / 255 ≤ 1 := (div_le_one (by norm_num)).mpr (by exact_mod_cast few)
      have atMost := mul_le_of_le_one_left (Nat.cast_nonneg (α := ℝ) steps) share
      linarith
    · change Scalar.toByte (((Rational.nearest ((v.toNat : Rat) / (255 : Nat) * steps) : Int) :
        Rat) / steps * (255 : Nat)) = _
      rw [Nat.cast_ofNat, whole]

/-- In doubles too. -/
theorem takesLevels_float
    {steps : Nat}
    (steps_pos : 1 ≤ steps)
    (steps_lt : steps < 2 ^ 32) :
    TakesLevels steps (levelByte steps) (onByte (posterize (Float.ofNat steps))) where
  nearest _ below := isNearest_levelByte steps_pos steps_lt below
  mapped v := by
    obtain ⟨level, nearest, below, same⟩ := exists_onByte_posterize steps_pos steps_lt v
    exact ⟨level, below, nearest, same⟩

theorem posterizes_rat
    (levels : Nat) :
    Posterizes levels (posterizeBytes Rat levels) :=
  (takesLevels_rat (by omega)).posterizes

theorem posterizes_float
    {levels : Nat}
    (word : levels < 2 ^ 32) :
    Posterizes levels (posterizeBytes Float levels) :=
  (takesLevels_float (by omega) (by omega)).posterizes

/-! ## Sides of cubes -/

/-- Powers of two are added to a side from the greatest on, as long as its cube stays too small. -/
theorem cubeSide_search
    {cells side bits : Nat}
    (small : side ^ 3 < cells)
    (large : cells ≤ (side + 2 ^ bits) ^ 3) :
    let found := (List.range bits).foldr
      (fun i side => if (side + 2 ^ i) ^ 3 < cells then side + 2 ^ i else side) side
    found ^ 3 < cells ∧ cells ≤ (found + 1) ^ 3 := by
  induction bits generalizing side with
  | zero => exact ⟨small, large⟩
  | succ bits inductionHypothesis =>
      rw [List.range_succ, List.foldr_append, List.foldr_cons, List.foldr_nil]
      split
      · next still =>
        refine inductionHypothesis still ?_
        rwa [add_assoc, ← two_mul, ← pow_succ']
      · next enough => exact inductionHypothesis small (not_lt.mp enough)

/-- The side is the least whose cube has so many cells. -/
theorem cubeSide_isLeast
    {cells : Nat}
    (some : 0 < cells)
    (few : cells ≤ 2 ^ 66) :
    IsLeast {side | cells ≤ side ^ 3} (cubeSide cells) := by
  have large : cells ≤ (0 + 2 ^ 22) ^ 3 := few.trans (by norm_num)
  have search := cubeSide_search (show 0 ^ 3 < cells by simpa using some) large
  unfold cubeSide
  generalize List.foldr _ 0 (List.range 22) = found at search ⊢
  obtain ⟨small, atLeast⟩ := search
  refine ⟨atLeast, fun side enough => ?_⟩
  by_contra less
  have smaller : side ^ 3 ≤ found ^ 3 := Nat.pow_le_pow_left (by omega) 3
  exact absurd small (not_lt.mpr (enough.trans smaller))

/-- The number of levels of each channel for a number of colors. -/
def levelsFor (colors : UInt64) : Nat :=
  cubeSide (max colors.toNat 2)

theorem levelsFor_isLeast
    (colors : UInt64) :
    IsLeast {side | max colors.toNat 2 ≤ side ^ 3} (levelsFor colors) :=
  cubeSide_isLeast (by omega) (by have := colors.toNat_lt; omega)

/-- No side is less than two. -/
theorem two_le_levelsFor
    (colors : UInt64) :
    2 ≤ levelsFor colors := by
  have enough : max colors.toNat 2 ≤ levelsFor colors ^ 3 := (levelsFor_isLeast colors).1
  by_contra less
  have one : levelsFor colors ^ 3 ≤ 1 ^ 3 := Nat.pow_le_pow_left (by omega) 3
  omega

/-- There are no more than 256 bytes. -/
theorem card_bytes_le
    (bytes : Finset UInt8) :
    bytes.card ≤ 256 := by
  rw [← Finset.card_range 256]
  exact Finset.card_le_card_of_injOn UInt8.toNat
    (fun byte _ => Finset.mem_coe.mpr (Finset.mem_range.mpr byte.toNat_lt))
    fun _ _ _ _ same => UInt8.toNat_inj.mp same

/-- The byte curve that reduces colors to a number: as many levels for each channel as a cube with
so many cells has on a side. -/
def reduction (colors : UInt64) : UInt8 → UInt8 :=
  onByte (posterize (quantizeLevels colors - 1.0))

/-- As many values are left as there are levels, unless there are fewer bytes. -/
theorem card_image_reduction
    (colors : UInt64) :
    (Finset.univ.image (reduction colors)).card ≤ 256 ∧
      (levelsFor colors ≤ 256 →
        (Finset.univ.image (reduction colors)).card = levelsFor colors) := by
  have one : (1.0 : Float) = Float.ofNat 1 := by decide
  refine ⟨card_bytes_le _, fun few => ?_⟩
  have atLeast := two_le_levelsFor colors
  have steps : quantizeLevels colors - 1.0 = Float.ofNat (levelsFor colors - 1) :=
    one ▸ ofNat_sub_one atLeast (show levelsFor colors < 2 ^ 53 by omega)
  rw [reduction, steps, card_image_posterize (by omega) (by omega), Nat.sub_add_cancel (by omega)]

end Tone
end Darkroom
