import Darkroom.Proofs.Geometry.Fit

/-!
# Sizes of an area

A source is resized to a number of pixels by one scale, the root of the ratio of both areas.  Each
side is rounded by itself to the nearest whole number.  So the area of the result is at most the
limit when both sides are rounded down, and it is more than the limit when both are rounded up; it
never exceeds the limit by more than half a pixel along both sides.
-/

namespace Darkroom
namespace Fit

open Binary (IsAbout Near inRange_of_le isAbout_ofNat isAbout_ofScientific roundoff)
open Decimal (whole whole_eq_ofScientific isDigit_of_mem_toDigits)

/-! ## Exact sides -/

/-- The part of a side that may be lost in doubles: less than that of six roundings. -/
noncomputable def areaSlack : ℝ :=
  8 • roundoff

/-- The sides of an area with the aspect ratio of a source. -/
noncomputable def areaSides (source : Size) (limit : Nat) : ℝ × ℝ :=
  (√(limit * ((numbers source).1 / (numbers source).2)),
    √(limit * ((numbers source).2 / (numbers source).1)))

/-- A side is rounded down, and the roundings before do not reach the middle. -/
structure RoundsDown (v : ℝ) : Prop where
  /-- The side is below the middle. -/
  below : v * (1 + areaSlack) < ⌊v⌋₊ + 1 / 2

/-- A side is rounded up, and the roundings before do not reach below the middle. -/
structure RoundsUp (v : ℝ) : Prop where
  /-- The side is not below the middle. -/
  above : ⌊v⌋₊ + 1 / 2 ≤ v * (1 - areaSlack)

/-- A side in pixels is a word and nearest to an exact side, but for a small part of it. -/
structure IsSide (v : ℝ) (n : Nat) : Prop where
  /-- There is a pixel. -/
  nonempty : 1 ≤ n
  /-- The side is a word. -/
  word : n < 2 ^ 32
  /-- It is hardly more than a half above. -/
  upper : n ≤ v * (1 + areaSlack) + 1 / 2
  /-- No word is hardly more than a half above it. -/
  lower : ∀ m : Nat, m < 2 ^ 32 → m ≤ v * (1 - areaSlack) + 1 / 2 → m ≤ n

/-- What becomes of a limit on the number of pixels. -/
structure LimitsArea (limit : Nat) (sides : ℝ × ℝ) (size : Size) : Prop where
  /-- The width is nearest to the exact one. -/
  across : limit < 2 ^ 64 → IsSide sides.1 size.width.toNat
  /-- The height is nearest to the exact one. -/
  down : limit < 2 ^ 64 → IsSide sides.2 size.height.toNat
  /-- With half a pixel less along each side the limit is kept. -/
  bounded : (2 * size.width.toNat - 1 : ℝ) * (2 * size.height.toNat - 1) ≤
    4 * limit * (1 + areaSlack) ^ 2
  /-- The limit is kept if both sides are rounded down. -/
  kept : RoundsDown sides.1 → RoundsDown sides.2 →
    size.width.toNat * size.height.toNat ≤ limit
  /-- The limit is exceeded if both sides are rounded up, and to words. -/
  exceeded : RoundsUp sides.1 → RoundsUp sides.2 → sides.1 < 2 ^ 32 - 1 → sides.2 < 2 ^ 32 - 1 →
    limit < size.width.toNat * size.height.toNat

section Sides

variable {v u : ℝ} {m n limit : Nat}

/-- A side that is rounded down is at most the exact one. -/
theorem IsSide.le
    (isSide : IsSide v n)
    (down : RoundsDown v) :
    n ≤ v := by
  have less : (n : ℝ) < ⌊v⌋₊ + 1 := by
    have upper := isSide.upper
    have below := down.below
    linarith
  have most : n ≤ ⌊v⌋₊ := Nat.lt_succ_iff.mp (by exact_mod_cast less)
  exact (Nat.le_floor_iff' (by have := isSide.nonempty; omega)).mp most

/-- A side that is rounded up is more than the exact one. -/
theorem IsSide.lt
    (isSide : IsSide v n)
    (nonneg : 0 ≤ v)
    (up : RoundsUp v)
    (small : v < 2 ^ 32 - 1) :
    v < n := by
  have word : ⌊v⌋₊ < 2 ^ 32 - 1 := (Nat.floor_lt nonneg).mpr (by exact_mod_cast small)
  have least := isSide.lower (⌊v⌋₊ + 1) (by omega) (by
    have above := up.above
    push_cast
    linarith)
  calc v < ⌊v⌋₊ + 1 := Nat.lt_floor_add_one v
    _ ≤ n := by exact_mod_cast least

/-- Sides near to those of an area are near to it. -/
theorem IsSide.limitsArea
    {size : Size}
    (across : IsSide v size.width.toNat)
    (down : IsSide u size.height.toNat)
    (v_nonneg : 0 ≤ v)
    (u_nonneg : 0 ≤ u)
    (area : v * u = limit) :
    LimitsArea limit (v, u) size where
  across _ := across
  down _ := down
  bounded := by
    have wide : (1 : ℝ) ≤ size.width.toNat := by exact_mod_cast across.nonempty
    have high : (1 : ℝ) ≤ size.height.toNat := by exact_mod_cast down.nonempty
    have slack : 0 ≤ 1 + areaSlack := by norm_num [areaSlack, roundoff]
    calc (2 * size.width.toNat - 1 : ℝ) * (2 * size.height.toNat - 1)
        ≤ (2 * (v * (1 + areaSlack))) * (2 * (u * (1 + areaSlack))) :=
          mul_le_mul (by linarith [across.upper]) (by linarith [down.upper]) (by linarith)
            (by positivity)
      _ = 4 * (v * u) * (1 + areaSlack) ^ 2 := by ring
      _ = 4 * limit * (1 + areaSlack) ^ 2 := by rw [area]
  kept downAcross downDown := by
    have product : (size.width.toNat : ℝ) * size.height.toNat ≤ limit :=
      area ▸ mul_le_mul (across.le downAcross) (down.le downDown) (Nat.cast_nonneg _) v_nonneg
    exact_mod_cast product
  exceeded upAcross upDown small small' := by
    have product : (limit : ℝ) < size.width.toNat * size.height.toNat :=
      area ▸ mul_lt_mul'' (across.lt v_nonneg upAcross small) (down.lt u_nonneg upDown small')
        v_nonneg u_nonneg
    exact_mod_cast product

/-- A limit that is no word of 64 bits is kept by every size. -/
theorem limitsArea_of_large
    (large : 2 ^ 64 ≤ limit)
    {size : Size}
    (nonempty : 1 ≤ size.width.toNat ∧ 1 ≤ size.height.toNat)
    (v_nonneg : 0 ≤ v)
    (u_nonneg : 0 ≤ u)
    (area : v * u = limit) :
    LimitsArea limit (v, u) size := by
  have product : size.width.toNat * size.height.toNat ≤ 2 ^ 32 * 2 ^ 32 :=
    Nat.mul_le_mul size.width.toNat_lt.le size.height.toNat_lt.le
  refine ⟨fun small => by omega, fun small => by omega, ?_, fun _ _ => by omega, ?_⟩
  · have wide : (1 : ℝ) ≤ size.width.toNat := by exact_mod_cast nonempty.1
    have high : (1 : ℝ) ≤ size.height.toNat := by exact_mod_cast nonempty.2
    have most : (size.width.toNat : ℝ) * size.height.toNat ≤ limit := by
      exact_mod_cast (show size.width.toNat * size.height.toNat ≤ limit by omega)
    have slack : 1 ≤ (1 + areaSlack) ^ 2 := one_le_pow₀ (by norm_num [areaSlack, roundoff])
    calc (2 * size.width.toNat - 1 : ℝ) * (2 * size.height.toNat - 1)
        ≤ 4 * limit := by nlinarith
      _ ≤ 4 * limit * (1 + areaSlack) ^ 2 := le_mul_of_one_le_right (by positivity) slack
  · intro _ _ small small'
    have few : (limit : ℝ) < 2 ^ 32 * 2 ^ 32 :=
      area ▸ mul_lt_mul'' (by linarith) (by linarith) v_nonneg u_nonneg
    have more : (2 : ℝ) ^ 64 ≤ limit := by exact_mod_cast large
    norm_num at few more
    linarith

end Sides

/-! ## Doubles -/

/-- A double that stands for an exact side up to six roundings is rounded to the side. -/
theorem isSide_of_isAbout
    {x : Float}
    {v : ℝ}
    (about : IsAbout 6 .positive x v)
    (some : 1 ≤ v) :
    IsSide v (max 1 (Scalar.toWord x)).toNat := by
  obtain ⟨mantissa, exponent, decoded, near⟩ := about.exists_finite
  have rounded := Binary.nearestWhole_eq_floor mantissa exponent
  have word : (Scalar.toWord x).toNat =
      min (Binary.nearestWhole mantissa exponent) (2 ^ 32 - 1) := by
    change (nearestUInt32 x).toNat = _
    rw [Binary.nearestUInt32_of_finite decoded, UInt32.toNat_ofNat', Nat.mod_eq_of_lt (by omega)]
  have lower : v * (1 - areaSlack) ≤ mantissa * 2 ^ exponent :=
    (mul_le_mul_of_nonneg_left (by norm_num [areaSlack, roundoff]) about.nonneg).trans near.lower
  have upper : mantissa * 2 ^ exponent ≤ v * (1 + areaSlack) :=
    near.upper.trans (mul_le_mul_of_nonneg_left (by norm_num [areaSlack, roundoff]) about.nonneg)
  rw [toNat_max_one, word]
  refine ⟨le_max_left 1 _, by omega, ?_, fun m isWord most => ?_⟩
  · have most : ((Binary.nearestWhole mantissa exponent : Nat) : ℝ) ≤
        mantissa * 2 ^ exponent + 1 / 2 :=
      rounded ▸ Nat.floor_le (by positivity)
    have slack : 0 ≤ v * areaSlack := mul_nonneg about.nonneg (by norm_num [areaSlack, roundoff])
    rw [Nat.cast_max, Nat.cast_one]
    refine max_le (by linarith) (le_trans ?_ (most.trans (by linarith)))
    exact_mod_cast min_le_left _ _
  · have least : m ≤ Binary.nearestWhole mantissa exponent := by
      rw [rounded]
      exact Nat.le_floor (by linarith)
    omega

section Scale

variable {w h limit : Nat} (w_pos : 0 < w) (h_pos : 0 < h) (w_less : w < 2 ^ 32)
  (h_less : h < 2 ^ 32) (limit_pos : 0 < limit) (limit_less : limit < 2 ^ 64)

include w_pos h_pos w_less h_less limit_pos limit_less

/-- The ratio of two areas is not far from one. -/
theorem areaRatio_mem :
    1 / 2 ^ 64 ≤ (limit : ℝ) / (w * h) ∧ (limit : ℝ) / (w * h) ≤ 2 ^ 64 := by
  have limit_least : (1 : ℝ) ≤ limit := by exact_mod_cast limit_pos
  have limit_most : (limit : ℝ) ≤ 2 ^ 64 := by exact_mod_cast limit_less.le
  have area_least : (1 : ℝ) ≤ w * h := by exact_mod_cast Nat.mul_pos w_pos h_pos
  have area_most : (w : ℝ) * h ≤ 2 ^ 64 := by
    exact_mod_cast (Nat.mul_le_mul w_less.le h_less.le).trans_eq (by norm_num)
  constructor
  · exact div_le_div₀ (by linarith) limit_least (by linarith) area_most
  · exact (div_le_self (by linarith) area_least).trans limit_most

/-- The scale of an area is not far from one. -/
theorem areaScale_mem :
    1 / 2 ^ 32 ≤ √((limit : ℝ) / (w * h)) ∧ √((limit : ℝ) / (w * h)) ≤ 2 ^ 32 := by
  obtain ⟨lower, upper⟩ := areaRatio_mem w_pos h_pos w_less h_less limit_pos limit_less
  constructor
  · exact Real.le_sqrt_of_sq_le (le_trans (by norm_num) lower)
  · exact Real.sqrt_le_iff.mpr ⟨by norm_num, upper.trans (by norm_num)⟩

/-- The scale of an area as a double. -/
theorem isAbout_areaScale :
    IsAbout 5 .positive (whole limit / (Float.ofNat w * Float.ofNat h)).sqrt
      (√((limit : ℝ) / (w * h))) := by
  have area_pos : (0 : ℝ) < w * h := by exact_mod_cast Nat.mul_pos w_pos h_pos
  have area_least : (1 : ℝ) ≤ w * h := by exact_mod_cast Nat.mul_pos w_pos h_pos
  have area_most : (w : ℝ) * h ≤ 2 ^ 64 := by
    exact_mod_cast (Nat.mul_le_mul w_less.le h_less.le).trans_eq (by norm_num)
  have ratio_mem := areaRatio_mem w_pos h_pos w_less h_less limit_pos limit_less
  have scale_mem := areaScale_mem w_pos h_pos w_less h_less limit_pos limit_less
  have wanted : IsAbout 1 .positive (whole limit) limit := by
    have digits : limit.log2 < 64 := (Nat.log2_lt (Nat.ne_of_gt limit_pos)).mpr limit_less
    rw [whole_eq_ofScientific limit_pos (by omega)]
    exact isAbout_ofScientific (limit_less.trans (by norm_num))
  have current : IsAbout 1 .positive (Float.ofNat w * Float.ofNat h) ((w : ℝ) * h) := by
    refine (isAbout_ofNat (by omega)).mul (isAbout_ofNat (by omega)) (by decide) fun _ => ?_
    exact inRange_of_le 64 (by decide) (le_trans (by norm_num) area_least) area_most
  have ratio := wanted.quotient current area_pos (by decide) fun _ =>
    inRange_of_le 64 (by decide) ratio_mem.1 ratio_mem.2
  exact ratio.sqrt (by decide) fun _ => inRange_of_le 32 (by decide) scale_mem.1 scale_mem.2

/-- A side of an area as a double. -/
theorem isAbout_areaSide
    {side : Nat}
    (side_pos : 0 < side)
    (side_less : side < 2 ^ 32) :
    IsAbout 6 .positive
      (Float.ofNat side * (whole limit / (Float.ofNat w * Float.ofNat h)).sqrt)
      (side * √((limit : ℝ) / (w * h))) := by
  have scale := isAbout_areaScale w_pos h_pos w_less h_less limit_pos limit_less
  obtain ⟨lower, upper⟩ := areaScale_mem w_pos h_pos w_less h_less limit_pos limit_less
  have least : (1 : ℝ) ≤ side := by exact_mod_cast side_pos
  have most : (side : ℝ) ≤ 2 ^ 32 := by exact_mod_cast side_less.le
  refine (isAbout_ofNat (by omega)).mul scale (by decide) fun _ => ?_
  refine inRange_of_le 64 (by decide) ?_ ?_
  · calc (1 : ℝ) / 2 ^ 64 ≤ 1 * (1 / 2 ^ 32) := by norm_num
      _ ≤ side * √((limit : ℝ) / (w * h)) := mul_le_mul least lower (by norm_num) (by linarith)
  · calc (side : ℝ) * √((limit : ℝ) / (w * h)) ≤ 2 ^ 32 * 2 ^ 32 :=
          mul_le_mul most upper (Real.sqrt_nonneg _) (by norm_num)
      _ = 2 ^ 64 := by norm_num

end Scale

/-! ## Texts -/

/-- The text of a limit on the number of pixels. -/
def areaText (limit : Nat) : String :=
  toString limit ++ "@"

/-- The region that a limit on the number of pixels writes. -/
def areaRegion (limit : Nat) : Region :=
  { width := some (whole limit), modifiers := { area := true } }

theorem parse?_areaText
    (limit : Nat) :
    Region.parse? (areaText limit) = some (areaRegion limit) := by
  have marks : Modifiers.split ['@'] = ([], { area := true }) := by decide
  have split := split_append_of_numberChars (isNumberChar_of_mem_toDigits limit) marks
  have read := takeNumber_toDigits limit (show EndsNumber [] from trivial)
  rw [List.append_nil] at read
  have digits : (areaText limit).toList = Nat.toDigits 10 limit ++ ['@'] := by
    simp [areaText]
  rw [Region.parse?, digits, Region.ofChars?, split]
  simp [Geometry.takeOptional, read, Region.takeOffset, startsSigned, areaRegion]

/-- The size of an area that a text writes. -/
theorem resizeDimensions_areaRegion
    (source : Size)
    (limit : Nat) :
    resizeDimensions source (areaRegion limit) =
      let w := Float.ofNat (max 1 source.width.toNat)
      let h := Float.ofNat (max 1 source.height.toNat)
      let scale := (whole limit / (w * h)).sqrt
      Size.nearest (w * scale) (h * scale) :=
  rfl

theorem areaSides_eq
    (source : Size)
    (limit : Nat) :
    let scale := √(limit / ((numbers source).1 * (numbers source).2))
    areaSides source limit = ((numbers source).1 * scale, (numbers source).2 * scale) := by
  obtain ⟨w_pos, h_pos⟩ := numbers_pos source
  have side {w h : ℝ} (w_pos : 0 < w) (h_pos : 0 < h) :
      √(limit * (w / h)) = w * √(limit / (w * h)) := by
    have ratio : (limit : ℝ) * (w / h) = w ^ 2 * (limit / (w * h)) := by field_simp
    rw [ratio, Real.sqrt_mul (sq_nonneg w), Real.sqrt_sq w_pos.le]
  refine Prod.ext (side w_pos h_pos) ((side h_pos w_pos).trans ?_)
  rw [mul_comm (numbers source).2 (numbers source).1]

/-- The product of the exact sides is the area. -/
theorem areaSides_mul
    (source : Size)
    (limit : Nat) :
    (areaSides source limit).1 * (areaSides source limit).2 = limit := by
  obtain ⟨w_pos, h_pos⟩ := numbers_pos source
  have ratio : ((limit : ℝ) * ((numbers source).1 / (numbers source).2)) *
      (limit * ((numbers source).2 / (numbers source).1)) = limit ^ 2 := by
    field_simp
  rw [areaSides, ← Real.sqrt_mul (by positivity), ratio, Real.sqrt_sq (Nat.cast_nonneg limit)]

/-- The exact sides are a pixel at least if the area is as great as each side of the source. -/
theorem one_le_areaSides
    (source : Size)
    {limit : Nat}
    (enough : max 1 source.width.toNat ≤ limit ∧ max 1 source.height.toNat ≤ limit) :
    1 ≤ (areaSides source limit).1 ∧ 1 ≤ (areaSides source limit).2 := by
  have side {w h : Nat} (w_pos : 1 ≤ w) (h_pos : 1 ≤ h) (more : h ≤ limit) :
      1 ≤ √((limit : ℝ) * (w / h)) := by
    have w_least : (1 : ℝ) ≤ w := by exact_mod_cast w_pos
    have h_least : (1 : ℝ) ≤ h := by exact_mod_cast h_pos
    have limit_least : (h : ℝ) ≤ limit := by exact_mod_cast more
    rw [Real.one_le_sqrt, ← mul_div_assoc, one_le_div (by linarith)]
    exact limit_least.trans (le_mul_of_one_le_right (by linarith) w_least)
  exact ⟨side (le_max_left 1 _) (le_max_left 1 _) enough.2,
    side (le_max_left 1 _) (le_max_left 1 _) enough.1⟩

/-- A limit on the number of pixels that is no less than each side of the source is read from its
text.  The size that a source is resized to is the nearest to the exact one, so that the limit is
kept if both sides are rounded down and exceeded if both are rounded up. -/
theorem resized_area_near_limit
    (source : Size)
    (limit : Nat)
    (enough : max 1 source.width.toNat ≤ limit ∧ max 1 source.height.toNat ≤ limit) :
    Region.parse? (areaText limit) = some (areaRegion limit) ∧
      LimitsArea limit (areaSides source limit) (resizeDimensions source (areaRegion limit)) := by
  refine ⟨parse?_areaText limit, ?_⟩
  have w_less : max 1 source.width.toNat < 2 ^ 32 := max_lt (by decide) source.width.toNat_lt
  have h_less : max 1 source.height.toNat < 2 ^ 32 := max_lt (by decide) source.height.toNat_lt
  have area := areaSides_mul source limit
  obtain ⟨wide, high⟩ := one_le_areaSides source enough
  rw [resizeDimensions_areaRegion]
  rcases Nat.lt_or_ge limit (2 ^ 64) with small | large
  · have limit_pos : 0 < limit := (le_max_left 1 _).trans enough.1
    have across := isAbout_areaSide (le_max_left 1 _) (le_max_left 1 _) w_less h_less limit_pos
      small (le_max_left 1 source.width.toNat) w_less
    have down := isAbout_areaSide (le_max_left 1 _) (le_max_left 1 _) w_less h_less limit_pos
      small (le_max_left 1 source.height.toNat) h_less
    rw [areaSides_eq] at wide high area ⊢
    exact (isSide_of_isAbout across wide).limitsArea (isSide_of_isAbout down high) (by linarith)
      (by linarith) area
  · refine limitsArea_of_large large ?_ (Real.sqrt_nonneg _) (Real.sqrt_nonneg _) area
    unfold Size.nearest
    rw [toNat_max_one, toNat_max_one]
    exact ⟨le_max_left 1 _, le_max_left 1 _⟩

/-- A source of 200 by 200 pixels resized to 10000 pixels has 100 by 100. -/
theorem square_of_ten_thousand :
    (max 1 200 ≤ 10000 ∧ max 1 200 ≤ 10000) ∧
      LimitsArea 10000 (areaSides ⟨200, 200⟩ 10000)
        (resizeDimensions ⟨200, 200⟩ (areaRegion 10000)) ∧
      resizeDimensions ⟨200, 200⟩ (areaRegion 10000) = ⟨100, 100⟩ := by
  have enough : max 1 200 ≤ 10000 ∧ max 1 200 ≤ 10000 := by decide
  exact ⟨enough, (resized_area_near_limit ⟨200, 200⟩ 10000 enough).2, by decide +kernel⟩

/-- A source of 2 by 2 pixels that is limited to 3 pixels keeps all of its 4: both sides are rounded
up from 1.73. -/
theorem three_pixels_are_four :
    (2 ≤ 3 ∧ (Region.parse? "3@").map (resizeDimensions ⟨2, 2⟩) = some ⟨2, 2⟩) ∧
      ¬ 2 * 2 ≤ 3 := by
  decide +kernel

end Fit
end Darkroom
