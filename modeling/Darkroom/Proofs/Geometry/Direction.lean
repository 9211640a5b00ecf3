import Darkroom.Proofs.Geometry.Fit
import Darkroom.Proofs.Number.Extent

/-!
# Sizes that only shrink or only grow

A geometry may be meant to shrink a source only, or to enlarge it only.  It leaves a source alone
whose both sides are to go the other way.  As long as one side of the size that it asks for follows
from the other, or both are scaled alike, both go one way, whatever numbers the text writes.  Where
both sides are written and each is taken by itself, one may go the other way.
-/

namespace Darkroom

open Binary (Extent HasExtent IsUnsigned isAbout_ofNat isUnsigned_value nearestUInt32_of_isHuge
  nearestUInt32_of_isTiny not_lt_of_lt ofNat_mul_div_ofNat ofNat_mul_ofNat roundoff)

/-! ## Numbers without a sign -/

/-- A number begins with a digit or a point. -/
theorem exists_cons_of_numeral
    {s : List Char}
    (nonempty : (numeral s).1 ≠ []) :
    ∃ c rest, (numeral s).1 = c :: rest ∧ (c.isDigit || c == '.') = true := by
  have begins : s.takeWhile (fun c => c.isDigit || c == '.') <+: (numeral s).1 := by
    unfold numeral
    dsimp only
    split
    · exact List.prefix_rfl
    split
    · split
      · split <;> dsimp only <;> split <;>
          first
            | exact List.prefix_rfl
            | rw [List.append_assoc]; exact List.prefix_append _ _
      · exact List.prefix_rfl
    · exact List.prefix_rfl
  cases s with
  | nil => exact absurd rfl nonempty
  | cons c rest =>
      cases numeric : (c.isDigit || c == '.') with
      | false =>
          have nothing : (c :: rest).takeWhile (fun c => c.isDigit || c == '.') = [] :=
            List.takeWhile_cons_of_neg (by rw [numeric]; exact Bool.false_ne_true)
          exact absurd (by rw [numeral, nothing]; rfl) nonempty
      | true =>
          rw [List.takeWhile_cons_of_pos (by exact numeric)] at begins
          obtain ⟨tail, same⟩ := begins
          exact ⟨c, _, same.symm, numeric⟩

/-- A number that begins so has no sign and is no word. -/
theorem isUnsigned_of_number
    {c : Char}
    {rest : List Char}
    {x : Float}
    (numeric : (c.isDigit || c == '.') = true)
    (read : Decimal.number? (c :: rest) = some x) :
    IsUnsigned x := by
  have noSign : c ≠ '-' ∧ c ≠ '+' := by
    constructor <;> rintro rfl <;> exact absurd numeric (by decide)
  have noLetter : c.isAlpha = false := by
    rw [← Bool.not_eq_true]
    intro letter
    rw [Text.isDigit_of_isAlpha letter, Bool.false_or, beq_iff_eq] at numeric
    exact absurd (numeric ▸ letter) (by decide)
  have magnitude : Decimal.magnitude? (c :: rest) = some x := by
    unfold Decimal.number? at read
    split at read
    · next same => exact absurd (List.cons.inj same).1 noSign.1
    · next same => exact absurd (List.cons.inj same).1 noSign.2
    · exact read
  have noWord {first : Char} {word : List Char} (letter : first.isAlpha = true) :
      String.ofList (Text.lower (c :: rest)) ≠ String.ofList (first :: word) := by
    intro same
    have begins : c.toLower = first := (List.cons.inj (String.ofList_injective same)).1
    rw [Text.isAlpha_of_toLower (begins ▸ letter)] at noLetter
    exact Bool.noConfusion noLetter
  unfold Decimal.magnitude? at magnitude
  split at magnitude
  · cases magnitude
    exact isUnsigned_value _
  dsimp only at magnitude
  split at magnitude
  · next word => exact absurd word (not_or.mpr ⟨noWord (by decide), noWord (by decide)⟩)
  split at magnitude
  · next word => exact absurd word (noWord (by decide))
  · cases magnitude

theorem isUnsigned_of_takeOptional
    (s : List Char) :
    ∀ x ∈ (Geometry.takeOptional false s).1, IsUnsigned x := by
  intro x mem
  unfold Geometry.takeOptional at mem
  rw [takeNumber_unsigned] at mem
  split at mem
  · next y rest read =>
    split at read
    · cases read
    · next nonempty =>
      obtain ⟨c, tail, same, numeric⟩ :=
        exists_cons_of_numeral (mt List.isEmpty_iff.mpr nonempty)
      rw [same] at read
      obtain ⟨z, number, pair⟩ := Option.map_eq_some_iff.mp read
      cases mem
      cases pair
      exact isUnsigned_of_number numeric number
  · cases mem

/-- The sides that a text writes have no sign. -/
theorem isUnsigned_of_parse
    {text : String}
    {r : Region}
    (parsed : Region.parse? text = some r) :
    (∀ x ∈ r.width, IsUnsigned x) ∧ ∀ x ∈ r.height, IsUnsigned x := by
  unfold Region.parse? Region.ofChars? at parsed
  dsimp only at parsed
  simp only [Option.bind_eq_bind, Option.bind_eq_some_iff] at parsed
  obtain ⟨offset, -, offset', -, built⟩ := parsed
  obtain ⟨-, same⟩ := Option.ite_none_left_eq_some.mp built
  cases Option.some.inj same
  refine ⟨isUnsigned_of_takeOptional _, ?_⟩
  dsimp only
  split
  · split
    · exact isUnsigned_of_takeOptional _
    · exact fun _ mem => nomatch mem
  · exact fun _ mem => nomatch mem

/-! ## Sides that go one way -/

/-- What two roundings may have brought to one is hardly above one. -/
theorem ratio_le
    {operations : Nat}
    {ratio side : ℝ}
    (few : operations ≤ 2)
    (pos : 0 < side)
    (near : ratio * side * (1 - roundoff) ^ operations ≤ side * (1 + roundoff) ^ operations) :
    ratio ≤ 1 + 1 / 2 ^ 40 := by
  have small : 0 < (1 - roundoff) ^ operations :=
    pow_pos (sub_pos.mpr Binary.roundoff_lt_one) operations
  have apart : (1 + roundoff) ^ operations ≤ (1 + 1 / 2 ^ 40) * (1 - roundoff) ^ operations := by
    interval_cases operations <;> norm_num [roundoff]
  refine le_of_mul_le_mul_right ?_ (mul_pos pos small)
  calc ratio * (side * (1 - roundoff) ^ operations)
      = ratio * side * (1 - roundoff) ^ operations := (mul_assoc _ _ _).symm
    _ ≤ side * (1 + roundoff) ^ operations := near
    _ ≤ side * ((1 + 1 / 2 ^ 40) * (1 - roundoff) ^ operations) :=
        mul_le_mul_of_nonneg_left apart pos.le
    _ = (1 + 1 / 2 ^ 40) * (side * (1 - roundoff) ^ operations) := mul_left_comm _ _ _

/-- What two roundings may have brought to one is hardly below one. -/
theorem le_ratio
    {operations : Nat}
    {ratio side : ℝ}
    (few : operations ≤ 2)
    (pos : 0 < side)
    (near : side * (1 - roundoff) ^ operations ≤ ratio * side * (1 + roundoff) ^ operations) :
    1 - 1 / 2 ^ 40 ≤ ratio := by
  have large : 0 < (1 + roundoff) ^ operations :=
    pow_pos (add_pos_of_pos_of_nonneg one_pos Binary.roundoff_nonneg) operations
  have apart : (1 - 1 / 2 ^ 40) * (1 + roundoff) ^ operations ≤ (1 - roundoff) ^ operations := by
    interval_cases operations <;> norm_num [roundoff]
  refine le_of_mul_le_mul_right ?_ (mul_pos pos large)
  calc (1 - 1 / 2 ^ 40) * (side * (1 + roundoff) ^ operations)
      = side * ((1 - 1 / 2 ^ 40) * (1 + roundoff) ^ operations) := mul_left_comm _ _ _
    _ ≤ side * (1 - roundoff) ^ operations := mul_le_mul_of_nonneg_left apart pos.le
    _ ≤ ratio * side * (1 + roundoff) ^ operations := near
    _ = ratio * (side * (1 + roundoff) ^ operations) := mul_assoc _ _ _

section Sides

variable {n m j k : Nat} {x y : Float} {extent : Extent} (n_pos : 0 < n) (n_less : n < 2 ^ 32)
  (m_less : m < 2 ^ 32) (across : HasExtent j x (extent.scale n))
  (down : HasExtent k y (extent.scale m)) (j_few : j ≤ 2) (k_few : k ≤ 2)

include n_pos n_less m_less across down j_few k_few

/-- Of sides that are scaled alike the one is not longer if the other is not. -/
theorem nearest_le_of_not_lt
    (notLonger : ¬ Float.ofNat n < x) :
    (nearestUInt32 y).toNat ≤ m := by
  cases extent with
  | tiny =>
      cases down with
      | tiny isTiny =>
          rw [nearestUInt32_of_isTiny isTiny (by omega)]
          exact Nat.zero_le m
  | huge =>
      cases across with
      | huge isHuge => exact absurd (isHuge.ofNat_lt n_pos n_less (by omega)) notLonger
  | moderate ratio =>
      cases across with
      | moderate about =>
      cases down with
      | moderate about' =>
          have side : (0 : ℝ) < n := Nat.cast_pos.mpr n_pos
          have exact_side := (isAbout_ofNat (show n < 2 ^ 53 by omega)).mono (Nat.zero_le j)
          have atMost := ratio_le j_few side (exact_side.le_of_not_lt about notLonger)
          have most : (m : ℝ) ≤ 2 ^ 32 := by exact_mod_cast m_less.le
          refine (Fit.roundsTo_of_isAbout about' (by omega)).le m ?_
          calc ratio * m ≤ (1 + 1 / 2 ^ 40) * m :=
                mul_le_mul_of_nonneg_right atMost (Nat.cast_nonneg m)
            _ ≤ m + 1 / 4 := by linarith

/-- Of sides that are scaled alike the one is not shorter if the other is not. -/
theorem le_nearest_of_not_lt
    (notShorter : ¬ x < Float.ofNat n) :
    m ≤ (nearestUInt32 y).toNat := by
  cases extent with
  | tiny =>
      cases across with
      | tiny isTiny => exact absurd (isTiny.lt_ofNat n_pos n_less (by omega)) notShorter
  | huge =>
      cases down with
      | huge isHuge =>
          rw [nearestUInt32_of_isHuge isHuge (by omega)]
          exact Nat.le_of_lt_succ m_less
  | moderate ratio =>
      cases across with
      | moderate about =>
      cases down with
      | moderate about' =>
          have side : (0 : ℝ) < n := Nat.cast_pos.mpr n_pos
          have exact_side := (isAbout_ofNat (show n < 2 ^ 53 by omega)).mono (Nat.zero_le j)
          have atLeast := le_ratio j_few side (about.le_of_not_lt exact_side notShorter)
          have most : (m : ℝ) ≤ 2 ^ 32 := by exact_mod_cast m_less.le
          have above : (m : ℝ) ≤ ratio * m + 1 / 4 := by
            have scaled := mul_le_mul_of_nonneg_right atLeast (Nat.cast_nonneg (α := ℝ) m)
            linarith
          have reached := (Fit.roundsTo_of_isAbout about' (by omega)).ge m above
          rw [UInt32.le_iff_toNat_le, toNat_saturated, min_eq_left (by omega)] at reached
          exact reached

end Sides

section Words

variable {n : Nat} {x : Float} (n_pos : 0 < n) (n_less : n < 2 ^ 32) (unsigned : IsUnsigned x)

include n_pos n_less unsigned

/-- A number that is not above a word is not rounded to one above it. -/
theorem nearest_le_of_not_gt
    (notLonger : ¬ Float.ofNat n < x) :
    (nearestUInt32 x).toNat ≤ n := by
  obtain ⟨extent, hasExtent⟩ := unsigned.exists_extent
  rw [← extent.scale_inv_scale (Nat.cast_pos.mpr n_pos)] at hasExtent
  exact nearest_le_of_not_lt n_pos n_less n_less hasExtent hasExtent (Nat.zero_le 2)
    (Nat.zero_le 2) notLonger

/-- A number that is not below a word is not rounded to one below it. -/
theorem le_nearest_of_not_gt
    (notShorter : ¬ x < Float.ofNat n) :
    n ≤ (nearestUInt32 x).toNat := by
  obtain ⟨extent, hasExtent⟩ := unsigned.exists_extent
  rw [← extent.scale_inv_scale (Nat.cast_pos.mpr n_pos)] at hasExtent
  exact le_nearest_of_not_lt n_pos n_less n_less hasExtent hasExtent (Nat.zero_le 2)
    (Nat.zero_le 2) notShorter

end Words

/-- Targets of a source, of which none passes its side while the other one is rounded beyond its own
side the other way. -/
structure InStep (n m : UInt32) (a b : Float) : Prop where
  /-- If it is to be narrower, it is not higher. -/
  shrinksDown : a < Float.ofNat n.toNat → max 1 (nearestUInt32 b) ≤ m
  /-- If it is to be lower, it is not wider. -/
  shrinksAcross : b < Float.ofNat m.toNat → max 1 (nearestUInt32 a) ≤ n
  /-- If it is to be wider, it is not lower. -/
  growsDown : Float.ofNat n.toNat < a → m ≤ max 1 (nearestUInt32 b)
  /-- If it is to be higher, it is not narrower. -/
  growsAcross : Float.ofNat m.toNat < b → n ≤ max 1 (nearestUInt32 a)

theorem max_one_le
    {n side : UInt32}
    (pos : 1 ≤ side.toNat)
    (le : n.toNat ≤ side.toNat) :
    max 1 n ≤ side := by
  rw [UInt32.le_iff_toNat_le, toNat_max_one]
  exact max_le pos le

theorem le_max_one
    {n side : UInt32}
    (le : side.toNat ≤ n.toNat) :
    side ≤ max 1 n := by
  rw [UInt32.le_iff_toNat_le, toNat_max_one]
  exact le_max_of_le_right le

/-- Sides of a source that are scaled alike, each by two operations at most. -/
def Alike (n m : Nat) (a b : Float) : Prop :=
  ∃ extent : Extent, ∃ j k, j ≤ 2 ∧ k ≤ 2 ∧ HasExtent j a (extent.scale n) ∧
    HasExtent k b (extent.scale m)

theorem Alike.symm
    {n m : Nat}
    {a b : Float}
    (alike : Alike n m a b) :
    Alike m n b a := by
  obtain ⟨extent, j, k, j_few, k_few, across, down⟩ := alike
  exact ⟨extent, k, j, k_few, j_few, down, across⟩

theorem Alike.isUnsigned
    {n m : Nat}
    {a b : Float}
    (alike : Alike n m a b) :
    IsUnsigned a ∧ IsUnsigned b := by
  obtain ⟨_, _, _, -, -, across, down⟩ := alike
  exact ⟨across.isUnsigned, down.isUnsigned⟩

theorem Alike.inStep
    {n m : UInt32}
    {a b : Float}
    (n_pos : 1 ≤ n.toNat)
    (m_pos : 1 ≤ m.toNat)
    (alike : Alike n.toNat m.toNat a b) :
    InStep n m a b := by
  obtain ⟨extent, j, k, j_few, k_few, across, down⟩ := alike
  have n_less := n.toNat_lt
  have m_less := m.toNat_lt
  exact {
    shrinksDown := fun less => max_one_le m_pos
      (nearest_le_of_not_lt n_pos n_less m_less across down j_few k_few (not_lt_of_lt less))
    shrinksAcross := fun less => max_one_le n_pos
      (nearest_le_of_not_lt m_pos m_less n_less down across k_few j_few (not_lt_of_lt less))
    growsDown := fun less => le_max_one
      (le_nearest_of_not_lt n_pos n_less m_less across down j_few k_few (not_lt_of_lt less))
    growsAcross := fun less => le_max_one
      (le_nearest_of_not_lt m_pos m_less n_less down across k_few j_few (not_lt_of_lt less)) }

/-- A source that keeps its width is in step, whatever its height is to be. -/
theorem inStep_of_width
    {n : UInt32}
    (n_pos : 1 ≤ n.toNat)
    (m : UInt32)
    (b : Float) :
    InStep n m (Float.ofNat n.toNat) b := by
  have irrefl (x : Float) : ¬ x < x := fun less => not_lt_of_lt less less
  have n_less := n.toNat_lt
  have width : IsUnsigned (Float.ofNat n.toNat) := Binary.isUnsigned_ofScientific _ _ _
  exact {
    shrinksDown := fun less => absurd less (irrefl _)
    shrinksAcross := fun _ => max_one_le n_pos
      (nearest_le_of_not_gt n_pos n_less width (irrefl _))
    growsDown := fun less => absurd less (irrefl _)
    growsAcross := fun _ => le_max_one (le_nearest_of_not_gt n_pos n_less width (irrefl _)) }

theorem InStep.symm
    {n m : UInt32}
    {a b : Float}
    (inStep : InStep n m a b) :
    InStep m n b a where
  shrinksDown := inStep.shrinksAcross
  shrinksAcross := inStep.shrinksDown
  growsDown := inStep.growsAcross
  growsAcross := inStep.growsDown

/-! ## Targets of a geometry -/

namespace Fit

section Modes

variable {n m : Nat} {p : Float} (n_pos : 0 < n) (m_pos : 0 < m) (n_less : n < 2 ^ 32)
  (m_less : m < 2 ^ 32) (unsigned : IsUnsigned p)

include n_pos m_pos n_less m_less unsigned

/-- Both sides multiplied by a scale. -/
theorem alike_of_scale :
    Alike n m (Float.ofNat n * p) (Float.ofNat m * p) := by
  obtain ⟨extent, hasExtent⟩ := unsigned.exists_extent
  exact ⟨extent, 1, 1, by decide, by decide, hasExtent.ofNat_mul n_pos n_less (by decide),
    hasExtent.ofNat_mul m_pos m_less (by decide)⟩

/-- Both sides as the same percentage. -/
theorem alike_of_percentage :
    Alike n m (Float.ofNat n * p / Float.ofNat 100) (Float.ofNat m * p / Float.ofNat 100) := by
  obtain ⟨extent, hasExtent⟩ := unsigned.exists_extent
  have side {k : Nat} (pos : 0 < k) (less : k < 2 ^ 32) :
      HasExtent 2 (Float.ofNat k * p / Float.ofNat 100)
        ((extent.scale ((100 : Nat) : ℝ)⁻¹).scale k) := by
    rw [Extent.scale_comm]
    exact (hasExtent.ofNat_mul pos less (by decide)).div_ofNat (by decide) (by decide) (by decide)
  exact ⟨_, 2, 2, by decide, by decide, side n_pos n_less, side m_pos m_less⟩

/-- A width with the height that keeps the aspect ratio. -/
theorem alike_of_side :
    Alike n m p (Float.ofNat m * p / Float.ofNat n) := by
  obtain ⟨extent, hasExtent⟩ := unsigned.exists_extent
  refine ⟨extent.scale (n : ℝ)⁻¹, 0, 2, by decide, by decide, ?_, ?_⟩
  · rwa [extent.scale_inv_scale (Nat.cast_pos.mpr n_pos)]
  · rw [Extent.scale_comm]
    exact (hasExtent.ofNat_mul m_pos m_less (by decide)).div_ofNat n_pos n_less (by decide)

end Modes

section Target

variable (m : Modifiers) (width height : Option Float) (a b w h : Float)

theorem target_of_percent
    (percent : m.percent = true) :
    target m width height w h =
      (w * width.getD (Float.ofNat 100) / Float.ofNat 100,
        h * height.getD (width.getD (Float.ofNat 100)) / Float.ofNat 100) := by
  unfold target requested isExact
  rw [percent]
  rfl

theorem target_of_aspect
    (percent : m.percent = false)
    (aspect : m.aspect = true) :
    target m (some a) (some b) w h = (a, b) := by
  unfold target requested isExact
  rw [percent, aspect]
  rfl

theorem target_of_box
    (percent : m.percent = false)
    (aspect : m.aspect = false) :
    target m (some a) (some b) w h =
      let scale := if m.minimum then greatestFloat (a / w) (b / h) else leastFloat (a / w) (b / h)
      (w * scale, h * scale) := by
  unfold target requested isExact
  rw [percent, aspect]
  rfl

theorem target_of_width
    (percent : m.percent = false) :
    target m (some a) none w h = (a, h * a / w) := by
  unfold target requested isExact
  rw [percent]
  cases m.aspect <;> rfl

theorem target_of_height
    (percent : m.percent = false) :
    target m none (some b) w h = (w * b / h, b) := by
  unfold target requested isExact
  rw [percent]
  cases m.aspect <;> rfl

theorem target_of_nothing
    (percent : m.percent = false) :
    target m none none w h = (w, h) := by
  unfold target requested isExact
  rw [percent]
  cases m.aspect <;> rfl

end Target

/-- The scale that is chosen for a box has no sign. -/
theorem isUnsigned_scale
    {a b : Float}
    (minimum : Bool)
    (across : IsUnsigned a)
    (down : IsUnsigned b) :
    IsUnsigned (if minimum then greatestFloat a b else leastFloat a b) := by
  unfold greatestFloat leastFloat
  split_ifs <;> assumption

/-- Both sides are written and each is taken by itself, as a percentage or without the aspect ratio
of the source. -/
def SidesApart (m : Modifiers) (width height : Option Float) : Prop :=
  width.isSome ∧ height.isSome ∧ (m.percent ∨ m.aspect)

/-- The target of a source scales both sides alike, keeps the width or takes each side by itself. -/
theorem target_cases
    {n m : Nat}
    (modifiers : Modifiers)
    {width height : Option Float}
    (n_pos : 0 < n)
    (m_pos : 0 < m)
    (n_less : n < 2 ^ 32)
    (m_less : m < 2 ^ 32)
    (width_unsigned : ∀ x ∈ width, IsUnsigned x)
    (height_unsigned : ∀ x ∈ height, IsUnsigned x) :
    ∃ a b, target modifiers width height (Float.ofNat n) (Float.ofNat m) = (a, b) ∧
      (Alike n m a b ∨ a = Float.ofNat n ∧ IsUnsigned b ∨
        SidesApart modifiers width height ∧ IsUnsigned a ∧ IsUnsigned b) := by
  have hundred : IsUnsigned (Float.ofNat 100) := Binary.isUnsigned_ofScientific _ _ _
  have percentage {k : Nat} {p : Float} (pos : 0 < k) (less : k < 2 ^ 32)
      (unsigned : IsUnsigned p) : IsUnsigned (Float.ofNat k * p / Float.ofNat 100) :=
    (unsigned.ofNat_mul pos less).div_ofNat (by decide) (by decide)
  cases percent : modifiers.percent with
  | true =>
      refine ⟨_, _, target_of_percent _ _ _ _ _ percent, ?_⟩
      cases width with
      | none =>
          -- A hundred percent of the width are the width.
          refine .inr (.inl ⟨?_, percentage m_pos m_less ?_⟩)
          · dsimp only [Option.getD_none]
            rw [ofNat_mul_ofNat n_pos (by decide) (by omega),
              ofNat_mul_div_ofNat n_pos (by decide) (by omega)]
          · cases height with
            | none => exact hundred
            | some q => exact height_unsigned q rfl
      | some p =>
          have unsigned := width_unsigned p rfl
          cases height with
          | none => exact .inl (alike_of_percentage n_pos m_pos n_less m_less unsigned)
          | some q =>
              exact .inr (.inr ⟨⟨rfl, rfl, .inl percent⟩, percentage n_pos n_less unsigned,
                percentage m_pos m_less (height_unsigned q rfl)⟩)
  | false =>
      cases width with
      | none =>
          cases height with
          | none =>
              exact ⟨_, _, target_of_nothing _ _ _ percent,
                .inr (.inl ⟨rfl, Binary.isUnsigned_ofScientific _ _ _⟩)⟩
          | some b =>
              have alike := alike_of_side m_pos n_pos m_less n_less (height_unsigned b rfl)
              exact ⟨_, _, target_of_height _ _ _ _ percent, .inl alike.symm⟩
      | some a =>
          have across := width_unsigned a rfl
          cases height with
          | none =>
              exact ⟨_, _, target_of_width _ _ _ _ percent,
                .inl (alike_of_side n_pos m_pos n_less m_less across)⟩
          | some b =>
              have down := height_unsigned b rfl
              cases aspect : modifiers.aspect with
              | true =>
                  exact ⟨_, _, target_of_aspect _ _ _ _ _ percent aspect,
                    .inr (.inr ⟨⟨rfl, rfl, .inr aspect⟩, across, down⟩)⟩
              | false =>
                  have scale := isUnsigned_scale modifiers.minimum
                    (across.div_ofNat n_pos n_less) (down.div_ofNat m_pos m_less)
                  exact ⟨_, _, target_of_box _ _ _ _ _ percent aspect,
                    .inl (alike_of_scale n_pos m_pos n_less m_less scale)⟩

end Fit

/-! ## One way only -/

/-- No side of a size is longer than that of another. -/
structure Size.Within (inner outer : Size) : Prop where
  /-- It is not wider. -/
  width : inner.width ≤ outer.width
  /-- It is not higher. -/
  height : inner.height ≤ outer.height

theorem Size.within_iff
    {inner outer : Size} :
    inner.Within outer ↔ inner.width ≤ outer.width ∧ inner.height ≤ outer.height :=
  ⟨fun within => ⟨within.width, within.height⟩, fun both => ⟨both.1, both.2⟩⟩

theorem Size.within_self
    (size : Size) :
    size.Within size :=
  ⟨UInt32.le_refl _, UInt32.le_refl _⟩

namespace Fit

variable (source : Size) (r : Region)

/-- The sides that a region asks for, before they are rounded. -/
def wanted : Float × Float :=
  target r.modifiers r.width r.height (sides Float source).1 (sides Float source).2

/-- The size that is nearest to these sides. -/
def nearestWanted : Size :=
  Size.nearest (wanted source r).1 (wanted source r).2

/-- Of sides that are taken each by itself one is to be shorter, while the other one is rounded to a
longer one. -/
def ShrinkCrosses : Prop :=
  SidesApart r.modifiers r.width r.height ∧
    ((wanted source r).1 < (sides Float source).1 ∧
        source.height < (nearestWanted source r).height ∨
      (wanted source r).2 < (sides Float source).2 ∧
        source.width < (nearestWanted source r).width)

/-- Of sides that are taken each by itself one is to be longer, while the other one is rounded to a
shorter one. -/
def GrowCrosses : Prop :=
  SidesApart r.modifiers r.width r.height ∧
    ((sides Float source).1 < (wanted source r).1 ∧
        (nearestWanted source r).height < source.height ∨
      (sides Float source).2 < (wanted source r).2 ∧
        (nearestWanted source r).width < source.width)

variable {source r} (wide : 1 ≤ source.width.toNat) (high : 1 ≤ source.height.toNat)

include wide high in
theorem sides_eq :
    sides Float source = (Float.ofNat source.width.toNat, Float.ofNat source.height.toNat) := by
  rw [sides, max_eq_right wide, max_eq_right high]
  rfl

/-- What is known of the sides that a region asks for. -/
structure IsWanted (source : Size) (r : Region) : Prop where
  /-- They have no sign. -/
  unsigned : IsUnsigned (wanted source r).1 ∧ IsUnsigned (wanted source r).2
  /-- They are in step or taken each by itself. -/
  inStep : ¬ SidesApart r.modifiers r.width r.height →
    InStep source.width source.height (wanted source r).1 (wanted source r).2

include wide high in
theorem isWanted
    (width_unsigned : ∀ x ∈ r.width, IsUnsigned x)
    (height_unsigned : ∀ x ∈ r.height, IsUnsigned x) :
    IsWanted source r := by
  obtain ⟨a, b, same, cases⟩ := target_cases r.modifiers wide high
    source.width.toNat_lt source.height.toNat_lt width_unsigned height_unsigned
  have targets : wanted source r = (a, b) := by
    rw [wanted, sides_eq wide high, same]
  rcases cases with alike | ⟨rfl, down⟩ | ⟨apart, unsigned⟩
  · exact ⟨targets ▸ alike.isUnsigned, fun _ => targets ▸ alike.inStep wide high⟩
  · exact ⟨targets ▸ ⟨Binary.isUnsigned_ofScientific _ _ _, down⟩,
      fun _ => targets ▸ inStep_of_width wide _ _⟩
  · exact ⟨targets ▸ unsigned, fun together => absurd apart together⟩

/-- A source is left alone if a geometry would take both sides the way that it must not take them;
it is resized to the nearest size if one side at least goes the other way. -/
theorem resized_cases
    (isWanted : IsWanted source r)
    (noArea : r.modifiers.area = false) :
    resizeDimensions source r = source ∧
        (r.modifiers.greater = true ∧ ¬ (wanted source r).1 < (sides Float source).1 ∧
            ¬ (wanted source r).2 < (sides Float source).2 ∨
          r.modifiers.less = true ∧ ¬ (sides Float source).1 < (wanted source r).1 ∧
            ¬ (sides Float source).2 < (wanted source r).2) ∨
      resizeDimensions source r = nearestWanted source r ∧
        (r.modifiers.greater = true → (wanted source r).1 < (sides Float source).1 ∨
          (wanted source r).2 < (sides Float source).2) ∧
        (r.modifiers.less = true → (sides Float source).1 < (wanted source r).1 ∨
          (sides Float source).2 < (wanted source r).2) := by
  have across : IsUnsigned (sides Float source).1 := Binary.isUnsigned_ofScientific _ _ _
  have down : IsUnsigned (sides Float source).2 := Binary.isUnsigned_ofScientific _ _ _
  have guard {x y : Float} (unsigned : IsUnsigned x) (unsigned' : IsUnsigned y) :
      Scalar.atMost x y = true ↔ ¬ y < x :=
    decide_eq_true_iff.trans (unsigned.le_iff unsigned')
  have resized : resizeDimensions source r =
      if r.modifiers.greater && Scalar.atMost (sides Float source).1 (wanted source r).1 &&
          Scalar.atMost (sides Float source).2 (wanted source r).2 then source
      else if r.modifiers.less && Scalar.atMost (wanted source r).1 (sides Float source).1 &&
          Scalar.atMost (wanted source r).2 (sides Float source).2 then source
      else nearestWanted source r :=
    if_neg (by rw [noArea]; exact Bool.false_ne_true)
  rw [resized]
  simp only [Bool.and_eq_true, guard across isWanted.unsigned.1, guard down isWanted.unsigned.2,
    guard isWanted.unsigned.1 across, guard isWanted.unsigned.2 down, and_assoc]
  split
  · next stays => exact .inl ⟨rfl, .inl stays⟩
  split
  · next stays => exact .inl ⟨rfl, .inr stays⟩
  · next shrinks grows =>
    refine .inr ⟨rfl, fun greater => ?_, fun less => ?_⟩
    · by_contra neither
      exact shrinks ⟨greater, not_or.mp neither⟩
    · by_contra neither
      exact grows ⟨less, not_or.mp neither⟩

/-- Sides that go the right way each by itself go that way together, if they do so in step or do not
cross. -/
theorem together_iff
    {apart p q across down : Prop}
    (moves : p ∨ q)
    (width : p → across)
    (height : q → down)
    (inStep : ¬ apart → (p → down) ∧ (q → across)) :
    across ∧ down ↔ ¬ (apart ∧ (p ∧ ¬ down ∨ q ∧ ¬ across)) := by
  tauto

include wide high in
/-- A geometry that must not enlarge does so only if it takes each side by itself and they cross. -/
theorem shrinks_iff
    (isWanted : IsWanted source r)
    (noArea : r.modifiers.area = false)
    (greater : r.modifiers.greater = true) :
    (resizeDimensions source r).Within source ↔ ¬ ShrinkCrosses source r := by
  have width := fun notWider => max_one_le wide
    (nearest_le_of_not_gt wide source.width.toNat_lt isWanted.unsigned.1 notWider)
  have height := fun notHigher => max_one_le high
    (nearest_le_of_not_gt high source.height.toNat_lt isWanted.unsigned.2 notHigher)
  have sides := sides_eq wide high
  have cases := resized_cases isWanted noArea
  rw [sides] at cases
  unfold ShrinkCrosses
  rw [sides, ← UInt32.not_le, ← UInt32.not_le]
  rcases cases with ⟨same, stays⟩ | ⟨same, shrinks, -⟩
  · rw [same]
    refine iff_of_true source.within_self ?_
    rcases stays with ⟨-, notNarrower, notLower⟩ | ⟨-, notWider, notHigher⟩
    · rintro ⟨-, ⟨narrower, -⟩ | ⟨lower, -⟩⟩
      · exact notNarrower narrower
      · exact notLower lower
    · rintro ⟨-, ⟨-, higher⟩ | ⟨-, wider⟩⟩
      · exact higher (height notHigher)
      · exact wider (width notWider)
  · rw [same, Size.within_iff]
    refine together_iff (shrinks greater) (fun narrower => width (not_lt_of_lt narrower))
      (fun lower => height (not_lt_of_lt lower)) fun together => ?_
    exact ⟨(isWanted.inStep together).shrinksDown, (isWanted.inStep together).shrinksAcross⟩

include wide high in
/-- A geometry that must not shrink does so only if it takes each side by itself and they cross. -/
theorem grows_iff
    (isWanted : IsWanted source r)
    (noArea : r.modifiers.area = false)
    (less : r.modifiers.less = true)
    (notGreater : r.modifiers.greater = false) :
    source.Within (resizeDimensions source r) ↔ ¬ GrowCrosses source r := by
  have width := fun notNarrower => le_max_one
    (le_nearest_of_not_gt wide source.width.toNat_lt isWanted.unsigned.1 notNarrower)
  have height := fun notLower => le_max_one
    (le_nearest_of_not_gt high source.height.toNat_lt isWanted.unsigned.2 notLower)
  have sides := sides_eq wide high
  have cases := resized_cases isWanted noArea
  rw [sides] at cases
  unfold GrowCrosses
  rw [sides, ← UInt32.not_le, ← UInt32.not_le]
  rcases cases with ⟨same, stays⟩ | ⟨same, -, grows⟩
  · rw [same]
    refine iff_of_true source.within_self ?_
    rcases stays with ⟨greater, -⟩ | ⟨-, notWider, notHigher⟩
    · exact absurd (notGreater.symm.trans greater) Bool.false_ne_true
    · rintro ⟨-, ⟨wider, -⟩ | ⟨higher, -⟩⟩
      · exact notWider wider
      · exact notHigher higher
  · rw [same, Size.within_iff]
    refine together_iff (grows less) (fun wider => width (not_lt_of_lt wider))
      (fun higher => height (not_lt_of_lt higher)) fun together => ?_
    exact ⟨(isWanted.inStep together).growsDown, (isWanted.inStep together).growsAcross⟩

/-- A geometry without an area that is only to shrink makes no side longer, and one that is only to
enlarge makes no side shorter, unless both sides are written, each is taken by itself and they
cross: one is to go the right way, while the other is rounded to a size that is the wrong way. -/
theorem resized_one_way_unless_crossing
    (source : Size)
    (text : String)
    (r : Region)
    (wide : 1 ≤ source.width.toNat)
    (high : 1 ≤ source.height.toNat)
    (parsed : Region.parse? text = some r)
    (noArea : r.modifiers.area = false) :
    (r.modifiers.greater = true →
        ((resizeDimensions source r).Within source ↔ ¬ ShrinkCrosses source r)) ∧
      (r.modifiers.less = true → r.modifiers.greater = false →
        (source.Within (resizeDimensions source r) ↔ ¬ GrowCrosses source r)) := by
  obtain ⟨width_unsigned, height_unsigned⟩ := isUnsigned_of_parse parsed
  have isWanted := isWanted wide high width_unsigned height_unsigned
  exact ⟨shrinks_iff wide high isWanted noArea, grows_iff wide high isWanted noArea⟩

/-- A source of 400 by 200 pixels in a box of 100 by 100 is only made smaller, to 100 by 50. -/
theorem wide_source_shrinks :
    ∃ r, (1 ≤ (400 : UInt32).toNat ∧ 1 ≤ (200 : UInt32).toNat) ∧
      Region.parse? "100x100>" = some r ∧ r.modifiers.area = false ∧
      r.modifiers.greater = true ∧ ¬ ShrinkCrosses ⟨400, 200⟩ r ∧
      (resizeDimensions ⟨400, 200⟩ r).Within ⟨400, 200⟩ ∧
      resizeDimensions ⟨400, 200⟩ r = ⟨100, 50⟩ := by
  obtain ⟨r, parsed⟩ : ∃ r, Region.parse? "100x100>" = some r :=
    Option.isSome_iff_exists.mp (by decide)
  have marks : (Region.parse? "100x100>").map (·.modifiers) = some { greater := true } := by
    decide
  have resized : (Region.parse? "100x100>").map (resizeDimensions ⟨400, 200⟩) = some ⟨100, 50⟩ := by
    decide +kernel
  rw [parsed, Option.map_some, Option.some.injEq] at marks resized
  have noArea : r.modifiers.area = false := by rw [marks]
  have greater : r.modifiers.greater = true := by rw [marks]
  have together : ¬ ShrinkCrosses ⟨400, 200⟩ r := by
    rintro ⟨⟨-, -, percent | aspect⟩, -⟩
    · rw [marks] at percent
      cases percent
    · rw [marks] at aspect
      cases aspect
  have oneWay := resized_one_way_unless_crossing ⟨400, 200⟩ "100x100>" r (by decide) (by decide)
    parsed noArea
  exact ⟨r, by decide, parsed, noArea, greater, together, (oneWay.1 greater).mpr together, resized⟩

/-- A source of 50 by 50 pixels is made 100 by 10 both where it is only to shrink and where it is
only to grow: one side goes each way. -/
theorem square_goes_both_ways :
    (Region.parse? "100x10!>").map (fun r => (r.modifiers, resizeDimensions ⟨50, 50⟩ r)) =
        some ({ aspect := true, greater := true }, ⟨100, 10⟩) ∧
      (Region.parse? "100x10!<").map (fun r => (r.modifiers, resizeDimensions ⟨50, 50⟩ r)) =
        some ({ aspect := true, less := true }, ⟨100, 10⟩) ∧
      ¬ (⟨100, 10⟩ : Size).Within ⟨50, 50⟩ ∧ ¬ (⟨50, 50⟩ : Size).Within ⟨100, 10⟩ := by
  refine ⟨by decide, by decide, fun within => ?_, fun within => ?_⟩
  · exact absurd within.width (by decide)
  · exact absurd within.height (by decide)

end Fit

end Darkroom
