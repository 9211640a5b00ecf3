import Darkroom.Pixels.Tone
import Darkroom.Proofs.Color.Distance
import Darkroom.Proofs.Number.Rational

/-!
# Ways between bytes

A table between two bytes takes each byte to the part of the way from the one to the other that it
has come, as a part of all bytes.  It is rounded to a byte at the end, and in doubles several times
before.  But the parts of different bytes are apart by as much as bytes are, and the roundings
before change them by far less than a half: the table keeps the order of bytes, the one becomes zero
and the other full, and between zero and full every byte stays as it is.
-/

namespace Darkroom
namespace Tone

open Color (difference difference_le abs_sub_eq_difference)
open Binary (IsAbout Near inRange_of_le isAbout_ofNat roundoff)

/-! ## Parts of the way -/

/-- The part of the way from one byte to another that a byte has come. -/
noncomputable def way (low high v : UInt8) : ℝ :=
  if v.toNat ≤ low.toNat then 0
  else if low.toNat + difference high low ≤ v.toNat then 1
  else (v.toNat - low.toNat) / difference high low

variable {low high u v : UInt8}

theorem way_of_le
    (notAbove : v.toNat ≤ low.toNat) :
    way low high v = 0 :=
  if_pos notAbove

theorem way_of_reached
    (above : low.toNat < v.toNat)
    (reached : low.toNat + difference high low ≤ v.toNat) :
    way low high v = 1 := by
  rw [way, if_neg (Nat.not_le.mpr above), if_pos reached]

theorem way_of_between
    (above : low.toNat < v.toNat)
    (before : v.toNat < low.toNat + difference high low) :
    way low high v = (v.toNat - low.toNat) / difference high low := by
  rw [way, if_neg (Nat.not_le.mpr above), if_neg (Nat.not_le.mpr before)]

/-- Of two bytes the greater one is further by a byte at least, or both have not started, or both
have arrived. -/
theorem way_cases
    (low high : UInt8)
    (less : u.toNat < v.toNat) :
    way low high u + 1 / 255 ≤ way low high v ∨
      (way low high u = 0 ∧ way low high v = 0) ∨ (way low high u = 1 ∧ way low high v = 1) := by
  have few : (difference high low : ℝ) ≤ 255 := by exact_mod_cast difference_le high low
  have next : (u.toNat : ℝ) + 1 ≤ v.toNat := by exact_mod_cast less
  by_cases atStart : v.toNat ≤ low.toNat
  · exact .inr (.inl ⟨way_of_le (by omega), way_of_le atStart⟩)
  by_cases atEnd : low.toNat < u.toNat ∧ low.toNat + difference high low ≤ u.toNat
  · exact .inr (.inr ⟨way_of_reached atEnd.1 atEnd.2, way_of_reached (by omega) (by omega)⟩)
  left
  by_cases behind : u.toNat ≤ low.toNat
  · rw [way_of_le behind]
    rcases Nat.lt_or_ge v.toNat (low.toNat + difference high low) with before | reached
    · have positive : (0 : ℝ) < difference high low := Nat.cast_pos.mpr (by omega)
      have started : (low.toNat : ℝ) + 1 ≤ v.toNat := by exact_mod_cast Nat.not_le.mp atStart
      rw [way_of_between (by omega) before]
      calc (0 : ℝ) + 1 / 255 ≤ 1 / difference high low := by
            rw [zero_add]
            exact one_div_le_one_div_of_le positive few
        _ ≤ (v.toNat - low.toNat) / difference high low := by gcongr; linarith
    · rw [way_of_reached (by omega) reached]
      norm_num
  · have before : u.toNat < low.toNat + difference high low := by omega
    have positive : (0 : ℝ) < difference high low := Nat.cast_pos.mpr (by omega)
    have missing : (u.toNat : ℝ) + 1 ≤ low.toNat + difference high low := by exact_mod_cast before
    have further : way low high u + 1 / 255 ≤ (u.toNat + 1 - low.toNat) / difference high low := by
      rw [way_of_between (by omega) before]
      calc ((u.toNat : ℝ) - low.toNat) / difference high low + 1 / 255
          ≤ (u.toNat - low.toNat) / difference high low + 1 / difference high low := by gcongr
        _ = (u.toNat + 1 - low.toNat) / difference high low := by ring
    refine further.trans ?_
    rcases Nat.lt_or_ge v.toNat (low.toNat + difference high low) with before | reached
    · rw [way_of_between (by omega) before]
      gcongr
    · rw [way_of_reached (by omega) reached]
      exact (div_le_one positive).mpr (by linarith)

/-- The part of the way is calculated by a division, where bytes that are not apart are taken to be
apart a little. -/
theorem clamp_eq_way
    (low high v : UInt8) :
    max 0 (min 1 (((v.toNat : ℝ) / 255 - low.toNat / 255) /
      max |(high.toNat : ℝ) / 255 - low.toNat / 255| (1 / 2 ^ 52))) = way low high v := by
  have span : |(high.toNat : ℝ) / 255 - low.toNat / 255| = difference high low / 255 := by
    rw [← sub_div, abs_div, abs_sub_eq_difference, abs_of_pos (show (0 : ℝ) < 255 by norm_num)]
  have positive : 0 < max ((difference high low : ℝ) / 255) (1 / 2 ^ 52) :=
    lt_max_of_lt_right (by norm_num)
  rw [span]
  by_cases notAbove : v.toNat ≤ low.toNat
  · have behind : (v.toNat : ℝ) ≤ low.toNat := by exact_mod_cast notAbove
    have negative : ((v.toNat : ℝ) / 255 - low.toNat / 255) /
        max ((difference high low : ℝ) / 255) (1 / 2 ^ 52) ≤ 0 :=
      div_nonpos_of_nonpos_of_nonneg (by linarith) positive.le
    rw [way_of_le notAbove, max_eq_left ((min_le_right _ _).trans negative)]
  have started : (low.toNat : ℝ) + 1 ≤ v.toNat := by exact_mod_cast Nat.not_le.mp notAbove
  rcases Nat.lt_or_ge v.toNat (low.toNat + difference high low) with before | reached
  · have some : (1 : ℝ) ≤ difference high low := Nat.one_le_cast.mpr (by omega)
    have missing : (v.toNat : ℝ) ≤ low.toNat + difference high low := by exact_mod_cast before.le
    have quotient : ((v.toNat : ℝ) / 255 - low.toNat / 255) / (difference high low / 255) =
        (v.toNat - low.toNat) / difference high low := by
      field_simp
    have atMost : ((v.toNat : ℝ) - low.toNat) / difference high low ≤ 1 :=
      (div_le_one (by linarith)).mpr (by linarith)
    have nonneg : 0 ≤ ((v.toNat : ℝ) - low.toNat) / difference high low :=
      div_nonneg (by linarith) (by linarith)
    rw [max_eq_left (show (1 : ℝ) / 2 ^ 52 ≤ difference high low / 255 by linarith), quotient,
      way_of_between (by omega) before, min_eq_right atMost, max_eq_right nonneg]
  · have more : (low.toNat : ℝ) + difference high low ≤ v.toNat := by exact_mod_cast reached
    have atLeast : 1 ≤ ((v.toNat : ℝ) / 255 - low.toNat / 255) /
        max ((difference high low : ℝ) / 255) (1 / 2 ^ 52) := by
      refine (one_le_div positive).mpr (max_le ?_ ?_) <;> linarith
    rw [way_of_reached (by omega) reached, min_eq_left atLeast, max_eq_right zero_le_one]

/-! ## Tables -/

/-- Tables between two bytes take each byte to its part of the way, but for some roundings. -/
structure TakesWay (table : Nat → Nat → UInt8 → UInt8) : Prop where
  /-- It is hardly more than a half away. -/
  close : ∀ low high v : UInt8,
    |((table low.toNat high.toNat v).toNat : ℝ) - way low high v * 255| ≤ 1 / 2 + 1 / 2 ^ 11

/-- Tables between two bytes that stretch what is between them over all bytes. -/
structure Stretches (table : Nat → Nat → UInt8 → UInt8) : Prop where
  /-- The order of values is kept. -/
  mono : ∀ (low high : UInt8) {u v : UInt8}, u ≤ v →
    table low.toNat high.toNat u ≤ table low.toNat high.toNat v
  /-- The lower byte becomes zero. -/
  least : ∀ low high : UInt8, table low.toNat high.toNat low = 0
  /-- The upper byte becomes full if it is not the lower one. -/
  greatest : ∀ {low high : UInt8}, low < high → table low.toNat high.toNat high = 255
  /-- Between zero and full nothing changes. -/
  full : ∀ v, table 0 255 v = v

namespace TakesWay

variable {table : Nat → Nat → UInt8 → UInt8} (takes : TakesWay table)

include takes

/-- Where the part of the way is a byte, that byte comes out. -/
theorem eq_of_way
    {byte : UInt8}
    (arrived : way low high v * 255 = byte.toNat) :
    table low.toNat high.toNat v = byte := by
  have close := abs_le.mp (takes.close low high v)
  rw [arrived] at close
  rw [← UInt8.toNat_inj]
  have notMore : (table low.toNat high.toNat v).toNat < byte.toNat + 1 := by
    rw [← Nat.cast_lt (α := ℝ)]
    push_cast
    linarith
  have notLess : byte.toNat < (table low.toNat high.toNat v).toNat + 1 := by
    rw [← Nat.cast_lt (α := ℝ)]
    push_cast
    linarith
  omega

theorem stretches : Stretches table where
  mono low high {u v} ordered := by
    rcases (UInt8.le_iff_toNat_le.mp ordered).eq_or_lt with same | less
    · rw [UInt8.toNat_inj.mp same]
      exact UInt8.le_refl _
    rcases way_cases low high less with further | ⟨first, second⟩ | ⟨first, second⟩
    · have before := abs_le.mp (takes.close low high u)
      have behind := abs_le.mp (takes.close low high v)
      rw [UInt8.le_iff_toNat_le]
      refine Nat.lt_succ_iff.mp ?_
      rw [← Nat.cast_lt (α := ℝ)]
      push_cast
      linarith
    · have zero {w : UInt8} (start : way low high w = 0) : table low.toNat high.toNat w = 0 :=
        takes.eq_of_way (by rw [start, zero_mul]; exact Nat.cast_zero.symm)
      rw [zero first, zero second]
      exact UInt8.le_refl _
    · have full {w : UInt8} (finish : way low high w = 1) : table low.toNat high.toNat w = 255 :=
        takes.eq_of_way (by rw [finish, one_mul]; exact (Nat.cast_ofNat (n := 255)).symm)
      rw [full first, full second]
      exact UInt8.le_refl _
  least low high := takes.eq_of_way <| by
    rw [way_of_le le_rfl, zero_mul]
    exact Nat.cast_zero.symm
  greatest {low high} less := takes.eq_of_way <| by
    have more := UInt8.lt_iff_toNat_lt.mp less
    have reached : low.toNat + difference high low ≤ high.toNat := by
      unfold difference
      omega
    rw [way_of_reached more reached, one_mul]
    exact (Nat.cast_ofNat (n := 255)).symm
  full v := by
    refine takes.eq_of_way (show way 0 255 v * 255 = v.toNat from ?_)
    have span : difference 255 0 = 255 := rfl
    have zero : (0 : UInt8).toNat = 0 := rfl
    have few := v.toNat_lt
    rcases Nat.eq_zero_or_pos v.toNat with start | some
    · rw [way_of_le (by omega), zero_mul, start, Nat.cast_zero]
    rcases Nat.lt_or_ge v.toNat 255 with before | full
    · rw [way_of_between (by omega) (by omega), span, zero, Nat.cast_zero, sub_zero, Nat.cast_ofNat,
        div_mul_cancel₀ _ (by norm_num)]
    · have same : v.toNat = 255 := by omega
      rw [way_of_reached (by omega) (by omega), one_mul, same, Nat.cast_ofNat]

end TakesWay

/-! ## Exact arithmetic -/

theorem stretch_rat
    (black white v : Rat) :
    stretch black white v = max 0 (min 1 ((v - black) / max |white - black| (1 / 2 ^ 52))) := by
  rw [stretch, Rational.clamp_eq (by simp)]
  simp

/-- In exact arithmetic there is only the last rounding. -/
theorem takesWay_rat : TakesWay (stretchBytes Rat) where
  close low high v := by
    obtain ⟨part, same⟩ : ∃ part : Rat,
        part = stretch ((low.toNat : Rat) / 255) (high.toNat / 255) (v.toNat / 255) := ⟨_, rfl⟩
    have clamped := same.trans (stretch_rat _ _ _)
    have value : (part : ℝ) = way low high v := by
      rw [← clamp_eq_way, clamped]
      push_cast
      rfl
    have nonneg : 0 ≤ part := clamped ▸ le_max_left _ _
    have atMost : part ≤ 1 := clamped ▸ max_le zero_le_one (min_le_left _ _)
    have isNearest := Rational.isNearest_toByte (mul_nonneg nonneg (by norm_num : (0 : Rat) ≤ 255))
      (by linarith)
    have byte : stretchBytes Rat low.toNat high.toNat v = Scalar.toByte (part * 255) := same ▸ rfl
    have lower := isNearest.lower
    have upper := isNearest.upper
    push_cast [value] at lower upper
    rw [byte, abs_le]
    constructor <;> linarith

/-! ## Doubles -/

/-- A byte as a fraction in doubles. -/
def part (v : UInt8) : Float :=
  Float.ofNat v.toNat / Float.ofNat 255

theorem roundoff_le : roundoff ≤ 1 / 2 ^ 51 := by
  norm_num [roundoff]

/-- The double of a fraction is exact for a number that is near to the fraction. -/
theorem exists_exact_part
    (v : UInt8) :
    ∃ w, IsAbout 0 .positive (part v) w ∧ |w - v.toNat / 255| ≤ roundoff := by
  have v_lt := v.toNat_lt
  have nonneg : (0 : ℝ) ≤ v.toNat := Nat.cast_nonneg _
  have few : (v.toNat : ℝ) ≤ 255 := by exact_mod_cast Nat.le_of_lt_succ v_lt
  have about : IsAbout 1 .positive (part v) (v.toNat / (255 : Nat)) :=
    (isAbout_ofNat (by omega)).div_ofNat (by decide) (by decide) (by decide) fun positive => by
      have some : (1 : ℝ) ≤ v.toNat := Nat.one_le_cast.mpr (Nat.cast_pos.mp positive)
      exact inRange_of_le 20 (by decide) (by push_cast; linarith) (by push_cast; linarith)
  obtain ⟨w, exact, lower, upper⟩ := about.exists_exact
  rw [Nat.cast_ofNat, pow_one] at lower upper
  have loss : (v.toNat : ℝ) / 255 * roundoff ≤ roundoff :=
    mul_le_of_le_one_left Binary.roundoff_nonneg ((div_le_one (by norm_num)).mpr few)
  refine ⟨w, exact, abs_le.mpr ⟨?_, ?_⟩⟩ <;> linarith

theorem isAbout_epsilon : IsAbout 0 .positive epsilon (1 / 2 ^ 52) := by
  have isNormal : Binary.IsNormal (2 ^ 52) (-104) :=
    ⟨by decide, by decide, by decide, by decide⟩
  have unpacked : epsilon.toModel.unpack = .finite .positive (2 ^ 52) (-104) isNormal.pos := by rfl
  have value : ((2 ^ 52 : Nat) : ℝ) * 2 ^ (-104 : Int) = 1 / 2 ^ 52 := by norm_num
  rw [IsAbout, unpacked, ← value]
  exact .finite isNormal (by positivity) (Near.refl _)

/-- A quotient that is brought into the whole is the lesser of both, but for some roundings. -/
theorem exists_isAbout_clamp
    {q : Float}
    {t : ℝ}
    (about : IsAbout 4 .positive q t) :
    ∃ w, IsAbout 4 .positive (Scalar.clamp q (Scalar.whole 0) (Scalar.whole 1)) w ∧
      (w = 1 ∨ w = t) ∧ |w - min 1 t| ≤ 1 / 2 ^ 45 := by
  have one : IsAbout 4 .positive (Float.ofNat 1) 1 :=
    (by exact_mod_cast isAbout_ofNat (show 1 < 2 ^ 53 by decide) :
      IsAbout 0 .positive (Float.ofNat 1) 1).mono (Nat.zero_le 4)
  have notBelow : Scalar.less q (Scalar.whole 0) = false := decide_eq_false about.not_lt_zero
  rw [Scalar.clamp, notBelow, if_neg Bool.false_ne_true]
  have more : (1 + roundoff) ^ 4 ≤ 1 + 1 / 2 ^ 47 := by norm_num [roundoff]
  have fewer : 1 - 1 / 2 ^ 47 ≤ (1 - roundoff) ^ 4 := by norm_num [roundoff]
  have nonneg := about.nonneg
  by_cases above : Float.ofNat 1 < q
  · have large := about.le_of_not_lt one (Binary.not_lt_of_lt above)
    have atLeast : 1 - 1 / 2 ^ 45 ≤ t := by nlinarith
    refine ⟨1, ?_, .inl rfl, ?_⟩
    · rw [if_pos (show Scalar.less (Scalar.whole 1) q = true from decide_eq_true above)]
      exact one
    · have upper := min_le_left 1 t
      have lower : 1 - 1 / 2 ^ 45 ≤ min 1 t := le_min (by norm_num) atLeast
      rw [abs_le]
      constructor <;> linarith
  · have small := one.le_of_not_lt about above
    have atMost : t ≤ 1 + 1 / 2 ^ 45 := by nlinarith
    refine ⟨t, ?_, .inr rfl, ?_⟩
    · rw [show Scalar.less (Scalar.whole 1) q = false from decide_eq_false above,
        if_neg Bool.false_ne_true]
      exact about
    · have upper := min_le_right 1 t
      have lower : t - 1 / 2 ^ 45 ≤ min 1 t := le_min (by linarith) (by norm_num)
      rw [abs_le]
      constructor <;> linarith

/-- A quotient of numbers that are near to others is near to the quotient of those. -/
theorem abs_div_sub_le
    {done width w span : ℝ}
    (nonneg : 0 ≤ w)
    (atMost : w ≤ 1)
    (done_close : |done - w * span| ≤ 1 / 2 ^ 50)
    (width_close : |width - span| ≤ 1 / 2 ^ 50)
    (wide : 1 / 2 ^ 9 ≤ width) :
    |done / width - w| ≤ 1 / 2 ^ 40 := by
  have positive : 0 < width := by linarith
  have cross : |done - w * width| ≤ 1 / 2 ^ 49 :=
    calc |done - w * width| = |done - w * span - w * (width - span)| := by ring_nf
      _ ≤ |done - w * span| + |w * (width - span)| := abs_sub _ _
      _ = |done - w * span| + w * |width - span| := by rw [abs_mul, abs_of_nonneg nonneg]
      _ ≤ 1 / 2 ^ 50 + 1 * (1 / 2 ^ 50) :=
        add_le_add done_close (mul_le_mul atMost width_close (abs_nonneg _) zero_le_one)
      _ = 1 / 2 ^ 49 := by norm_num
  rw [div_sub' positive.ne', abs_div, abs_of_pos positive, div_le_iff₀ positive, mul_comm width]
  linarith

section Parts

-- What the fractions of bytes are exact for.
variable {a : UInt8 → ℝ} (exact : ∀ v, IsAbout 0 .positive (part v) (a v))
  (close : ∀ v, |a v - v.toNat / 255| ≤ roundoff)

include close

/-- Differences of fractions are those of bytes, but for two roundings. -/
theorem abs_difference_le
    (u v : UInt8) :
    |a v - a u - (v.toNat - u.toNat) / 255| ≤ 1 / 2 ^ 50 := by
  have first := abs_le.mp ((close u).trans roundoff_le)
  have second := abs_le.mp ((close v).trans roundoff_le)
  rw [abs_le]
  constructor <;> linarith

/-- A greater byte has a greater fraction. -/
theorem difference_ge
    (less : u.toNat < v.toNat) :
    1 / 2 ^ 8 ≤ a v - a u := by
  have next : (u.toNat : ℝ) + 1 ≤ v.toNat := by exact_mod_cast less
  have near := abs_le.mp (abs_difference_le close u v)
  linarith

theorem abs_difference_ge
    (differ : u ≠ v) :
    1 / 2 ^ 8 ≤ |a v - a u| := by
  rcases lt_or_gt_of_ne (mt UInt8.toNat_inj.mp differ) with less | more
  · exact (difference_ge close less).trans (le_abs_self _)
  · rw [abs_sub_comm]
    exact (difference_ge close more).trans (le_abs_self _)

theorem abs_difference_le_two
    (u v : UInt8) :
    |a v - a u| ≤ 2 := by
  have u_few : (u.toNat : ℝ) ≤ 255 := by exact_mod_cast Nat.le_of_lt_succ u.toNat_lt
  have v_few : (v.toNat : ℝ) ≤ 255 := by exact_mod_cast Nat.le_of_lt_succ v.toNat_lt
  have u_nonneg : (0 : ℝ) ≤ u.toNat := Nat.cast_nonneg _
  have v_nonneg : (0 : ℝ) ≤ v.toNat := Nat.cast_nonneg _
  have near := abs_le.mp (abs_difference_le close u v)
  rw [abs_le]
  constructor <;> linarith

/-- A byte that is not at the start has come a part of the way that is not small. -/
theorem quotient_ge
    (high : UInt8)
    (differ : low ≠ v) :
    1 / 2 ^ 9 ≤ |a v - a low| / max |a high - a low| (1 / 2 ^ 52) := by
  have wide := abs_difference_ge close differ
  have divisor : max |a high - a low| (1 / 2 ^ 52) ≤ 2 :=
    max_le (abs_difference_le_two close low high) (by norm_num)
  rw [le_div_iff₀ (lt_max_of_lt_right (by norm_num))]
  linarith

/-- The part of the way is hardly changed by the roundings of the fractions. -/
theorem abs_min_sub_way_le
    (low high : UInt8)
    (notBelow : low.toNat ≤ v.toNat) :
    |min 1 (|a v - a low| / max |a high - a low| (1 / 2 ^ 52)) - way low high v| ≤ 1 / 2 ^ 40 := by
  have positive : 0 < max |a high - a low| (1 / 2 ^ 52) := lt_max_of_lt_right (by norm_num)
  rcases notBelow.eq_or_lt with same | less
  · rw [UInt8.toNat_inj.mp same, sub_self, abs_zero, zero_div, way_of_le le_rfl,
      min_eq_right zero_le_one, sub_zero, abs_zero]
    norm_num
  have started := difference_ge close less
  have done := abs_difference_le close low v
  have span : |(|a high - a low| - difference high low / 255)| ≤ 1 / 2 ^ 50 := by
    rw [← abs_sub_eq_difference, ← abs_of_pos (show (0 : ℝ) < 255 by norm_num), ← abs_div]
    exact (abs_abs_sub_abs_le_abs_sub _ _).trans (abs_difference_le close low high)
  rw [abs_of_pos (show 0 < a v - a low by linarith)]
  have bounds := abs_le.mp span
  rcases Nat.lt_or_ge v.toNat (low.toNat + difference high low) with before | reached
  · have some : (1 : ℝ) ≤ difference high low := Nat.one_le_cast.mpr (by omega)
    have missing : (v.toNat : ℝ) ≤ low.toNat + difference high low := by exact_mod_cast before.le
    have further : (low.toNat : ℝ) ≤ v.toNat := by exact_mod_cast notBelow
    have wide : 1 / 2 ^ 9 ≤ |a high - a low| := by linarith
    rw [way_of_between less before, max_eq_left (show 1 / 2 ^ 52 ≤ |a high - a low| by linarith)]
    have share : ((v.toNat : ℝ) - low.toNat) / 255 =
        (v.toNat - low.toNat) / difference high low * (difference high low / 255) := by
      field_simp
    have nonneg : 0 ≤ ((v.toNat : ℝ) - low.toNat) / difference high low :=
      div_nonneg (by linarith) (by linarith)
    have atMost : ((v.toNat : ℝ) - low.toNat) / difference high low ≤ 1 :=
      (div_le_one (by linarith)).mpr (by linarith)
    rw [share] at done
    have quotient := abs_div_sub_le nonneg atMost done span wide
    have clamped := abs_min_sub_min_le_max 1 ((a v - a low) / |a high - a low|) 1
      (((v.toNat : ℝ) - low.toNat) / difference high low)
    rw [min_eq_right atMost] at clamped
    exact clamped.trans (max_le (by norm_num) quotient)
  · have more : (low.toNat : ℝ) + difference high low ≤ v.toNat := by exact_mod_cast reached
    have covered := (abs_le.mp done).1
    have width : max |a high - a low| (1 / 2 ^ 52) ≤ a v - a low + 1 / 2 ^ 49 :=
      max_le (by linarith) (by linarith)
    have atLeast : 1 - 1 / 2 ^ 40 ≤ (a v - a low) / max |a high - a low| (1 / 2 ^ 52) := by
      rw [le_div_iff₀ positive]
      calc (1 - 1 / 2 ^ 40) * max |a high - a low| (1 / 2 ^ 52)
          ≤ (1 - 1 / 2 ^ 40) * (a v - a low + 1 / 2 ^ 49) :=
            mul_le_mul_of_nonneg_left width (by norm_num)
        _ ≤ a v - a low := by linarith
    rw [way_of_reached less reached, abs_le]
    have lower := le_min (show 1 - 1 / 2 ^ 40 ≤ (1 : ℝ) by norm_num) atLeast
    have upper := min_le_left 1 ((a v - a low) / max |a high - a low| (1 / 2 ^ 52))
    constructor <;> linarith

include exact

theorem isAbout_difference
    (u v : UInt8) :
    IsAbout 1 (if a v < a u then .negative else .positive) (part v - part u) |a v - a u| := by
  refine (Binary.Stands.sub (exact v) (exact u) fun differ => ?_).pack
  have distinct : u ≠ v := by
    rintro rfl
    exact differ rfl
  have wide := abs_difference_ge close distinct
  have narrow := abs_difference_le_two close u v
  exact inRange_of_le 20 (by decide) (by linarith) (by linarith)

/-- Bytes that are not apart are taken to be apart a little. -/
theorem isAbout_span
    (low high : UInt8) :
    IsAbout 1 .positive (greatestFloat (part high - part low).abs epsilon)
      (max |a high - a low| (1 / 2 ^ 52)) := by
  have little : IsAbout 1 .positive epsilon (1 / 2 ^ 52) := isAbout_epsilon.mono (Nat.zero_le 1)
  have span := (isAbout_difference exact close low high).abs
  have small : roundoff ≤ 1 / 2 := roundoff_le.trans (by norm_num)
  rcases eq_or_ne low high with rfl | differ
  · rw [sub_self, abs_zero] at span ⊢
    rcases span.greatestFloat_cases little with ⟨-, wrong⟩ | ⟨same, -⟩
    · rw [pow_one, pow_one] at wrong
      linarith
    · rw [same, max_eq_right (by norm_num)]
      exact little
  · have wide := abs_difference_ge close differ
    rcases span.greatestFloat_cases little with ⟨same, -⟩ | ⟨-, wrong⟩
    · rw [same, max_eq_left (by linarith)]
      exact span
    · rw [pow_one, pow_one] at wrong
      nlinarith

/-- The quotient by which the part of the way is calculated. -/
theorem isAbout_quotient
    (low high v : UInt8) :
    IsAbout 4 (if a v < a low then .negative else .positive)
      ((part v - part low) / greatestFloat (part high - part low).abs epsilon)
      (|a v - a low| / max |a high - a low| (1 / 2 ^ 52)) := by
  have positive : 0 < max |a high - a low| (1 / 2 ^ 52) := lt_max_of_lt_right (by norm_num)
  refine (isAbout_difference exact close low v).quotient (isAbout_span exact close low high)
    positive (by decide) fun started => ?_
  have distinct : low ≠ v := by
    rintro rfl
    exact absurd started (by rw [sub_self, abs_zero]; exact lt_irrefl 0)
  refine inRange_of_le 60 (by decide) ?_ ?_
  · exact le_trans (by norm_num) (quotient_ge close high distinct)
  · rw [div_le_iff₀ positive]
    have narrow := abs_difference_le_two close low v
    have least : 1 / 2 ^ 52 ≤ max |a high - a low| (1 / 2 ^ 52) := le_max_right _ _
    linarith

/-- The part of the way in doubles; it is not small unless it is none. -/
theorem exists_isAbout_stretch
    (low high v : UInt8) :
    ∃ w, IsAbout 4 .positive (stretch (part low) (part high) (part v)) w ∧
      (w = 0 ∨ 1 / 2 ^ 9 ≤ w) ∧ |w - way low high v| ≤ 1 / 2 ^ 39 := by
  have quotient := isAbout_quotient exact close low high v
  rcases Nat.lt_or_ge v.toNat low.toNat with behind | notBelow
  · -- The difference is below zero, and so is the quotient: it is cut off.
    have started := difference_ge close behind
    have distance : 0 < |a v - a low| := by
      rw [abs_sub_comm]
      exact abs_pos_of_pos (by linarith)
    rw [if_pos (by linarith)] at quotient
    have below := quotient.lt_zero (div_pos distance (lt_max_of_lt_right (by norm_num)))
    have cut : stretch (part low) (part high) (part v) = Float.ofNat 0 :=
      if_pos (decide_eq_true below)
    refine ⟨0, cut ▸ .zero, .inl rfl, ?_⟩
    rw [way_of_le behind.le, sub_zero, abs_zero]
    norm_num
  · have ordered : a low ≤ a v := by
      rcases notBelow.eq_or_lt with same | less
      · rw [UInt8.toNat_inj.mp same]
      · linarith [difference_ge close less]
    rw [if_neg ordered.not_gt] at quotient
    obtain ⟨w, about, either, cut⟩ := exists_isAbout_clamp quotient
    refine ⟨w, about, ?_, ?_⟩
    · rcases either with rfl | rfl
      · exact .inr (by norm_num)
      · rcases eq_or_ne low v with rfl | differ
        · rw [sub_self, abs_zero, zero_div]
          exact .inl rfl
        · exact .inr (quotient_ge close high differ)
    · calc |w - way low high v| ≤ _ + _ := abs_sub_le w _ (way low high v)
        _ ≤ 1 / 2 ^ 45 + 1 / 2 ^ 40 :=
          add_le_add cut (abs_min_sub_way_le close low high notBelow)
        _ ≤ 1 / 2 ^ 39 := by norm_num

end Parts

theorem way_le_one
    (low high v : UInt8) :
    way low high v ≤ 1 := by
  rw [← clamp_eq_way]
  exact max_le zero_le_one (min_le_left _ _)

/-- In doubles the roundings before the last one hardly matter. -/
theorem takesWay_float : TakesWay (stretchBytes Float) where
  close low high v := by
    choose a exact close using exists_exact_part
    obtain ⟨w, about, some, near⟩ := exists_isAbout_stretch exact close low high v
    have bounds := abs_le.mp near
    have atMost := way_le_one low high v
    have full : IsAbout 0 .positive (Float.ofNat 255) 255 := by
      exact_mod_cast isAbout_ofNat (show 255 < 2 ^ 53 by decide)
    have scaled := about.mul full (by decide) fun positive => by
      have large := some.resolve_left (left_ne_zero_of_mul positive.ne')
      exact inRange_of_le 20 (by decide) (by linarith) (by linarith)
    obtain ⟨n, nearest, byte, -, -⟩ := scaled.exists_isNearest (by decide) (by linarith)
    have n_le : n ≤ 255 := nearest.le (by push_cast; linarith)
    have value : (stretchBytes Float low.toNat high.toNat v).toNat = n := by
      change (nearestByte (stretch (part low) (part high) (part v) * Float.ofNat 255)).toNat = n
      rw [byte, min_eq_left n_le, UInt8.toNat_ofNat', Nat.mod_eq_of_lt (by omega)]
    have lower := nearest.lower
    have upper := nearest.upper
    rw [value, abs_le]
    constructor <;> linarith

end Tone
end Darkroom
