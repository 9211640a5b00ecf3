import Darkroom.Operators.List
import Darkroom.Proofs.Reel.Rearrangement

/-!
# Images handed to the engine

Some operators on the list hand over only some of its images: the first few, or two sequences
without the null image that stands between them.  What they hand over is a part of the list, and the
first null image behind the first image decides where the sequences are.
-/

namespace Darkroom

namespace Reel

variable {α : Type} {r : Reel α}

theorem map_getElem?_range
    {items : List α}
    {count : Nat}
    (inside : count ≤ items.length) :
    (List.range count).map (items[·]?) = (items.take count).map some := by
  refine List.ext_getElem? fun i => ?_
  rw [List.getElem?_map, List.getElem?_map, List.getElem?_take]
  by_cases before : i < count
  · rw [List.getElem?_range before, if_pos before,
      Option.map_some, List.getElem?_eq_getElem (Nat.lt_of_lt_of_le before inside), Option.map_some]
  · rw [List.getElem?_eq_none (by simpa using before), if_neg before]
    rfl

theorem filter_ne_range
    (place count : Nat) :
    (List.range (place + 1 + count)).filter (· != place) =
      List.range place ++ (List.range count).map (place + 1 + ·) := by
  have before : (List.range place).filter (· != place) = List.range place := by
    refine List.filter_eq_self.mpr fun i mem => ?_
    have less := List.mem_range.mp mem
    exact bne_iff_ne.mpr (Nat.ne_of_lt less)
  have behind : ((List.range count).map (place + 1 + ·)).filter (· != place) =
      (List.range count).map (place + 1 + ·) := by
    refine List.filter_eq_self.mpr fun i mem => ?_
    obtain ⟨j, -, rfl⟩ := List.mem_map.mp mem
    exact bne_iff_ne.mpr (by omega)
  rw [List.range_add, List.range_succ, List.filter_append, List.filter_append, before, behind]
  simp

namespace Whole

theorem at?_eq_getElem?
    (whole : r.Whole)
    (position : Nat) :
    r.at? position = r.toList[position]? := by
  rw [at?_eq, whole.places_eq, List.getElem?_map]
  cases r.toList[position]? <;> rfl

/-- Copies of the first places are the first items. -/
theorem copies?_range
    (whole : r.Whole)
    {count : Nat}
    (inside : count ≤ r.toList.length) :
    r.copies? (List.range count) = some (r.toList.take count) :=
  whole.copies?_eq_some_iff.mpr (map_getElem?_range inside).symm

/-- Copies of all places but one are the items before it and the items behind it. -/
theorem copies?_but_one
    (whole : r.Whole)
    {place : Nat}
    (inside : place < r.toList.length) :
    r.copies? ((List.range r.toList.length).filter (· != place)) =
      some (r.toList.take place ++ r.toList.drop (place + 1)) := by
  obtain ⟨count, length⟩ := Nat.exists_eq_add_of_le (Nat.succ_le_of_lt inside)
  rw [whole.copies?_eq_some_iff, length, filter_ne_range, List.map_append, List.map_append,
    map_getElem?_range (Nat.le_of_lt inside), List.map_map]
  refine congrArg _ ?_
  have behind : (r.toList.drop (place + 1)).length = count := by
    rw [List.length_drop]
    omega
  calc (r.toList.drop (place + 1)).map some
      = (List.range (r.toList.drop (place + 1)).length).map ((r.toList.drop (place + 1))[·]?) := by
        rw [map_getElem?_range (Nat.le_refl _), List.take_length]
    _ = (List.range count).map ((r.toList[·]?) ∘ (place + 1 + ·)) := by
        rw [behind]
        exact List.map_congr_left fun i _ => List.getElem?_drop

end Whole
end Reel

/-- The place of the first null image behind the first image. -/
structure IsFirstNull (images : List Image) (place : Nat) : Prop where
  /-- It is not the first image. -/
  behind : 1 ≤ place
  /-- It is a null image. -/
  null : ∃ image, images[place]? = some image ∧ image.isNull = true
  /-- Between the first image and it there is no null image. -/
  first : ∀ {j : Nat} {image : Image}, 1 ≤ j → j < place → images[j]? = some image →
    image.isNull = false

theorem isFirstNull_cons_iff
    {image : Image}
    {rest : List Image}
    {i : Nat} :
    IsFirstNull (image :: rest) (i + 1) ↔ rest.findIdx? Image.isNull = some i := by
  rw [List.findIdx?_eq_some_iff_getElem]
  constructor
  · rintro ⟨-, ⟨null, found, isNull⟩, first⟩
    obtain ⟨bound, rfl⟩ := List.getElem?_eq_some_iff.mp found
    have bound' : i < rest.length := Nat.lt_of_succ_lt_succ bound
    refine ⟨bound', isNull, fun j less => ?_⟩
    have here : (image :: rest)[j + 1]? = some rest[j] :=
      List.getElem?_eq_getElem (Nat.lt_trans less bound')
    rw [first (by omega) (by omega) here]
    exact Bool.false_ne_true
  · rintro ⟨bound, isNull, before⟩
    refine ⟨by omega, ⟨rest[i], List.getElem?_eq_getElem bound, isNull⟩, ?_⟩
    rintro (_ | j) other behind less found
    · omega
    · obtain ⟨bound', rfl⟩ := List.getElem?_eq_some_iff.mp found
      exact Bool.eq_false_of_not_eq_true (before j (by omega))

namespace ListOperator

/-- The first null image separates sequences unless it is the last image. -/
theorem separator?_eq_some_iff
    {images : List Image}
    {place : Nat} :
    separator? images = some place ↔ IsFirstNull images place ∧ place + 1 < images.length := by
  rw [separator?, Option.filter_eq_some_iff, Option.map_eq_some_iff, decide_eq_true_iff]
  refine and_congr_left fun inside => ?_
  match images, place with
  | [], _ => exact absurd inside (Nat.not_lt_zero _)
  | image :: rest, 0 =>
      constructor
      · rintro ⟨_, _, successor⟩
        cases successor
      · intro isFirst
        exact absurd isFirst.behind (Nat.not_succ_le_zero 0)
  | image :: rest, i + 1 =>
      rw [isFirstNull_cons_iff]
      simp

theorem separator?_eq_none_iff
    {images : List Image} :
    separator? images = none ↔
      ∀ place, IsFirstNull images place → images.length ≤ place + 1 := by
  simp only [Option.eq_none_iff_forall_ne_some, Ne, separator?_eq_some_iff, not_and, Nat.not_lt]

variable {images : Reel Image} {items : List Image} (view : View) (inv : Invocation)

/-- What is composed onto what, and where, when a null image separates two sequences. -/
theorem compositeLayers_of_separates
    (whole : images.Whole)
    (contents : images.toList = items)
    {place : Nat}
    (isFirst : IsFirstNull items place)
    (inside : place + 1 < items.length)
    {destination source : Image}
    (front : items[0]? = some destination)
    (next : items[place + 1]? = some source) :
    compositeLayers view images =
      .ok (.assembleFrom (items.take place ++ items.drop (place + 1))
        (.compositeLayers (composeSetting view) (compositeOffset destination source).1
          (compositeOffset destination source).2 place)) := by
  subst contents
  have separated : separator? images.toList = some place :=
    separator?_eq_some_iff.mpr ⟨isFirst, inside⟩
  have operands := whole.copies?_but_one (Nat.lt_of_succ_lt inside)
  rw [whole.length_toList] at operands
  unfold compositeLayers workFrom
  simp only [separated, whole.at?_eq_getElem?, front, next, operands]

theorem compositeLayers_of_no_separator
    (contents : images.toList = items)
    (lacking : ∀ place, IsFirstNull items place → items.length ≤ place + 1) :
    compositeLayers view images = .error .missingSeparator := by
  rw [compositeLayers, contents, separator?_eq_none_iff.mpr lacking]

/-- The second image is composed onto the first; of the others no more than one goes with them. -/
theorem composite_of_two
    (whole : images.Whole)
    {destination source : Image}
    {others : List Image}
    (contents : images.toList = destination :: source :: others) :
    composite view images inv =
      .ok (.assembleFrom (destination :: source :: others.take 1)
        (.composite (composeSetting view) (compositeOffset destination source).1
          (compositeOffset destination source).2)) := by
  have length : images.length = others.length + 2 := by
    rw [← whole.length_toList, contents]
    rfl
  have copied : images.copies? (List.range (min images.length 3)) =
      some (destination :: source :: others.take 1) := by
    rw [whole.copies?_range (by rw [whole.length_toList]; exact Nat.min_le_left _ _), contents,
      length, show min (others.length + 2) 3 = min others.length 1 + 2 by omega]
    cases others with
    | nil => rfl
    | cons mask more =>
        rw [List.length_cons, Nat.min_eq_right (Nat.succ_le_succ (Nat.zero_le _))]
        rfl
  have enough : ¬ images.length < 2 := by omega
  unfold composite workFrom
  simp only [enough, if_false, whole.at?_eq_getElem?, contents, copied]
  rfl

end ListOperator
end Darkroom
