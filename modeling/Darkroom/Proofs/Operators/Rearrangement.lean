import Darkroom.Proofs.Geometry.Scenes
import Darkroom.Proofs.Operators.Plans
import Darkroom.Proofs.Reel.Rearrangement
import Darkroom.Operators.List

/-!
# Operators that rearrange the list

What the operators that exchange two images, move the last one or add copies decide on, read off
their arguments.  Exchanging looks at nothing but the number of images.  Moving the last image takes
it out first, so that a negative index counts from the end of the others.
-/

namespace Darkroom
namespace ListOperator

variable (view : View) {images : Reel Image} {inv : Invocation}

/-! ## Two images exchanged -/

theorem resolve?_congr
    {images' : Reel Image}
    (sameLength : images'.length = images.length)
    (index : Int) :
    images'.resolve? index = images.resolve? index := by
  rw [Reel.resolve?, Reel.resolve?, sameLength]

theorem swap_of_resolved
    {p q : Int64}
    {i j : Nat}
    (read : swapIndexes inv = .ok (p, q))
    (first : images.resolve? p.toInt = some i)
    (second : images.resolve? q.toInt = some j) :
    swap view images inv = .ok (.rearrange (images.exchange i j)) := by
  have iInside : i < images.length := by
    simpa using (Reel.resolve?_eq_some_iff.mp first).1
  have jInside : j < images.length := by
    simpa using (Reel.resolve?_eq_some_iff.mp second).1
  unfold swap
  rw [read]
  simp only [bind, Except.bind, first, second, Reel.swap_of_lt iInside jInside]
  split
  · next same => rw [same, Reel.exchange_self]
  · rfl

theorem swap_of_unresolved
    {p q : Int64}
    (read : swapIndexes inv = .ok (p, q))
    (missing : images.resolve? p.toInt = none ∨ images.resolve? q.toInt = none) :
    swap view images inv =
      .error (.noSuchImage (toString p.toInt ++ "," ++ toString q.toInt)) := by
  unfold swap
  rw [read]
  simp only [bind, Except.bind]
  split
  · next first second => simp [first, second] at missing
  · rfl

theorem swap_of_unread
    {fault : Fault}
    (unread : swapIndexes inv = .error fault) :
    swap view images inv = .error fault := by
  unfold swap
  rw [unread]
  rfl

/-- An exchange is decided on by the argument and the number of images. -/
theorem swap_cases
    (images : Reel Image)
    (inv : Invocation) :
    (∃ i j, ∀ (view : View) (others : Reel Image), others.length = images.length →
        swap view others inv = .ok (.rearrange (others.exchange i j))) ∨
      ∃ fault, ∀ (view : View) (others : Reel Image), others.length = images.length →
        swap view others inv = .error fault := by
  cases read : swapIndexes inv with
  | error fault => exact .inr ⟨fault, fun view others _ => swap_of_unread view read⟩
  | ok indexes =>
      obtain ⟨p, q⟩ := indexes
      by_cases both : ∃ i j, images.resolve? p.toInt = some i ∧ images.resolve? q.toInt = some j
      · obtain ⟨i, j, first, second⟩ := both
        refine .inl ⟨i, j, fun view others sameLength => ?_⟩
        exact swap_of_resolved view read ((resolve?_congr sameLength _).trans first)
          ((resolve?_congr sameLength _).trans second)
      · refine .inr ⟨_, fun view others sameLength => swap_of_unresolved view read ?_⟩
        rw [resolve?_congr sameLength, resolve?_congr sameLength]
        cases first : images.resolve? p.toInt with
        | none => exact .inl rfl
        | some i =>
            cases second : images.resolve? q.toInt with
            | none => exact .inr rfl
            | some j => exact absurd ⟨i, j, first, second⟩ both

/-! ## The last image moved -/

/-- The index that an argument names for the last image: the first place when taken back. -/
def insertIndex (inv : Invocation) : Except Fault Int64 :=
  if inv.normal then inv.first >>= integer else .ok 0

/-- The place among `length` images that the last one is moved to.  A negative index counts from the
end of the others. -/
def insertPlace (length : Nat) (index : Int) : Int :=
  if index < 0 then (length : Int) - 1 + index else index

/-- The last item stands at a position, and the others stand around it in their order. -/
structure MovedLast {α : Type} (position : Nat) (items moved : List α) : Prop where
  /-- The item that was last is at the position. -/
  last : moved[position]? = items.getLast?
  /-- Without it the others are left, in their order. -/
  others : moved.eraseIdx position = items.dropLast

theorem MovedLast.insertIdx
    {α : Type}
    {others : List α}
    {position : Nat}
    (within : position ≤ others.length)
    (item : α) :
    MovedLast position (others ++ [item]) (others.insertIdx position item) where
  last := by simp [List.getElem?_insertIdx_self, within]
  others := by simp [List.eraseIdx_insertIdx_self]

/-- Nothing is lost and nothing is added. -/
theorem MovedLast.perm
    {α : Type}
    {position : Nat}
    {items moved : List α}
    (movedLast : MovedLast position items moved) :
    moved.Perm items := by
  cases found : items.getLast? with
  | none =>
      have nowhere := List.getElem?_eq_none_iff.mp (movedLast.last.trans found)
      have others := movedLast.others
      rw [List.eraseIdx_of_length_le nowhere] at others
      rw [others, List.getLast?_eq_none_iff.mp found]
      exact .refl _
  | some item =>
      obtain ⟨inside, here⟩ := List.getElem?_eq_some_iff.mp (movedLast.last.trans found)
      have front : (item :: items.dropLast).Perm moved := by
        rw [← here, ← movedLast.others]
        exact List.getElem_cons_eraseIdx_perm inside
      refine front.symm.trans ((List.perm_append_singleton _ _).symm.trans (.of_eq ?_))
      exact List.dropLast_append_getLast? item found

theorem MovedLast.eq_insertIdx
    {α : Type}
    {position : Nat}
    {items moved : List α}
    (movedLast : MovedLast position items moved)
    {item : α}
    (last : items.getLast? = some item) :
    moved = items.dropLast.insertIdx position item := by
  obtain ⟨inside, here⟩ := List.getElem?_eq_some_iff.mp (movedLast.last.trans last)
  rw [← movedLast.others, ← here, List.insertIdx_eraseIdx_getElem inside]

theorem insert_eq
    (images : Reel Image)
    (inv : Invocation) :
    insert view images inv = insertIndex inv >>= fun index =>
      match images.removeLast with
      | (none, _) => .error .noImages
      | (some image, others) =>
          let length : Int := others.length
          let position := if index < 0 then length + index.toInt else index.toInt
          match if position < 0 then none else others.insert position.toNat image with
          | some (_, images) => .ok (.rearrange images)
          | none => .ok (.refuse (others.push image).2 (.noSuchImage (toString index.toInt))) := by
  unfold insert insertIndex
  cases inv.normal with
  | false => rfl
  | true =>
      cases inv.first with
      | error fault => rfl
      | ok text => rfl

theorem insert_of_unread
    {fault : Fault}
    (unread : insertIndex inv = .error fault) :
    insert view images inv = .error fault := by
  rw [insert_eq, unread]
  rfl

/-- The last image is taken out and put in again at its place among the others. -/
theorem insert_of_read
    (whole : images.Whole)
    (nonempty : images.isEmpty = false)
    {index : Int64}
    (read : insertIndex inv = .ok index) :
    let place := insertPlace images.length index.toInt
    ∃ (image : Image) (others : Reel Image), others.Whole ∧
      others.toList ++ [image] = images.toList ∧
      insert view images inv =
        match if place < 0 then none else others.insert place.toNat image with
        | some (_, moved) => .ok (.rearrange moved)
        | none => .ok (.refuse (others.push image).2 (.noSuchImage (toString index.toInt))) := by
  intro place
  obtain ⟨image, others, removed⟩ := whole.exists_removeLast nonempty
  have othersWhole := whole.of_removeLast removed
  have items := whole.removeLast_toList removed
  refine ⟨image, others, othersWhole, items, ?_⟩
  have length : (others.length : Int) = images.length - 1 := by
    rw [← whole.length_toList, ← items, ← othersWhole.length_toList]
    simp
  have placed :
      (if index < 0 then (others.length : Int) + index.toInt else index.toInt) = place := by
    simp only [length, Int64.lt_iff_toInt_lt]
    rfl
  rw [insert_eq, read]
  simp only [bind, Except.bind, removed, placed]

/-- With an index of a place among the images, the last one is moved there. -/
theorem insert_of_inside
    (whole : images.Whole)
    {index : Int64}
    (read : insertIndex inv = .ok index)
    {position : Nat}
    (place : insertPlace images.length index.toInt = position)
    (inside : position < images.length) :
    ∃ moved, insert view images inv = .ok (.rearrange moved) ∧ moved.Whole ∧
      MovedLast position images.toList moved.toList := by
  have nonempty := Reel.isEmpty_eq_false_iff.mpr (Nat.zero_lt_of_lt inside)
  obtain ⟨image, others, othersWhole, items, decided⟩ :=
    insert_of_read view whole nonempty read
  have within : position ≤ others.toList.length := by
    rw [← whole.length_toList, ← items] at inside
    simpa [Nat.lt_succ_iff] using inside
  obtain ⟨h, moved, inserted⟩ : ∃ h moved, others.insert position image = some (h, moved) := by
    rw [othersWhole.length_toList] at within
    rw [Reel.insert, if_neg (Nat.not_lt.mpr within)]
    exact ⟨_, _, rfl⟩
  refine ⟨moved, ?_, othersWhole.insert inserted, ?_⟩
  · rw [decided, place, if_neg (by simp), Int.toNat_natCast, inserted]
  · rw [← items, othersWhole.insert_toList inserted]
    exact .insertIdx within image

/-- With an index of a place that is not there, the list is put together again. -/
theorem insert_of_outside
    (whole : images.Whole)
    (nonempty : images.isEmpty = false)
    {index : Int64}
    (read : insertIndex inv = .ok index)
    (outside : insertPlace images.length index.toInt < 0 ∨
      images.length ≤ insertPlace images.length index.toInt) :
    ∃ kept, insert view images inv =
        .ok (.refuse kept (.noSuchImage (toString index.toInt))) ∧
      kept.Whole ∧ kept.toList = images.toList := by
  obtain ⟨image, others, othersWhole, items, decided⟩ :=
    insert_of_read view whole nonempty read
  have length : images.length = others.length + 1 := by
    rw [← whole.length_toList, ← items, ← othersWhole.length_toList]
    simp
  refine ⟨(others.push image).2, ?_, othersWhole.push image, ?_⟩
  · have refused : (if insertPlace images.length index.toInt < 0 then none
        else others.insert (insertPlace images.length index.toInt).toNat image) = none := by
      split
      · rfl
      · rw [Reel.insert, if_pos (by omega)]
    rw [decided, refused]
  · rw [← items]
    exact othersWhole.extend_toList [image]

/-! ## Copies added -/

/-- An argument asks for a number of copies of the images at some positions: of the last image
unless scenes stand behind a comma. -/
inductive Asks (length : Nat) : String → Int64 → List Nat → Prop
  | last
      {text : String}
      {count : Int64}
      (noComma : ',' ∉ text.toList)
      (read : integer text = .ok count) :
      Asks length text count [length - 1]
  | scenes
      {number scenes : String}
      {count : Int64}
      {positions : List Nat}
      (noComma : ',' ∉ number.toList)
      (read : integer number = .ok count)
      (parsed : Scenes.parse scenes length = .ok positions) :
      Asks length (number ++ "," ++ scenes) count positions

theorem copiesAsked_of_uncut
    {text : String}
    (noComma : ',' ∉ text.toList)
    (length : Nat) :
    copiesAsked text length = (integer text).map (·, [length - 1]) := by
  rw [copiesAsked, Text.cut?_eq_none_iff.mpr noComma]
  cases integer text <;> rfl

theorem copiesAsked_of_cut
    {number : String}
    (noComma : ',' ∉ number.toList)
    (scenes : String)
    (length : Nat) :
    copiesAsked (number ++ "," ++ scenes) length =
      (integer number).bind fun count =>
        ((Scenes.parse scenes length).mapError GeometryError.toFault).map (count, ·) := by
  have cut : Text.cut? ',' (number ++ "," ++ scenes).toList =
      some (number.toList, scenes.toList) := by
    rw [String.toList_append, String.toList_append, List.append_assoc]
    exact Text.cut?_eq_some_iff.mpr ⟨rfl, noComma⟩
  rw [copiesAsked, cut]
  simp only [String.ofList_toList]
  cases integer number with
  | error fault => rfl
  | ok count => cases Scenes.parse scenes length <;> rfl

theorem copiesAsked_eq_ok_iff
    {text : String}
    {length : Nat}
    {count : Int64}
    {positions : List Nat} :
    copiesAsked text length = .ok (count, positions) ↔ Asks length text count positions := by
  constructor
  · intro asked
    cases cut : Text.cut? ',' text.toList with
    | none =>
        have noComma := Text.cut?_eq_none_iff.mp cut
        rw [copiesAsked_of_uncut noComma] at asked
        cases read : integer text with
        | error fault => simp [read, Except.map] at asked
        | ok number =>
            obtain ⟨rfl, rfl⟩ : number = count ∧ [length - 1] = positions := by
              simpa [read, Except.map] using asked
            exact .last noComma read
    | some parts =>
        obtain ⟨number, scenes⟩ := parts
        obtain ⟨split, noComma⟩ := Text.cut?_eq_some_iff.mp cut
        obtain rfl : text = String.ofList number ++ "," ++ String.ofList scenes := by
          apply String.toList_injective
          simpa using split
        rw [copiesAsked_of_cut (by simpa using noComma)] at asked
        cases read : integer (String.ofList number) with
        | error fault => simp [read, Except.bind] at asked
        | ok count' =>
            cases parsed : Scenes.parse (String.ofList scenes) length with
            | error refusal =>
                simp [read, parsed, Except.bind, Except.map, Except.mapError] at asked
            | ok positions' =>
                obtain ⟨rfl, rfl⟩ : count' = count ∧ positions' = positions := by
                  simpa [read, parsed, Except.bind, Except.map, Except.mapError] using asked
                exact .scenes (by simpa using noComma) read parsed
  · rintro (⟨noComma, read⟩ | ⟨noComma, read, parsed⟩)
    · rw [copiesAsked_of_uncut noComma, read]
      rfl
    · rw [copiesAsked_of_cut noComma, read, parsed]
      rfl

/-- Asked for in the right way, the copies stand behind the images, as often as they are asked
for. -/
theorem duplicate_of_asked
    (whole : images.Whole)
    (nonempty : images.isEmpty = false)
    (normal : inv.normal = true)
    {text : String}
    (given : inv.first? = some text)
    {count : Int64}
    {positions : List Nat}
    (asked : Asks images.length text count positions) :
    ∃ (copies : List Image) (extended : Reel Image),
      copies.map some = positions.map (images.toList[·]?) ∧
        duplicate view images inv = .ok (.rearrange extended) ∧ extended.Whole ∧
        extended.toList =
          images.toList ++ (List.replicate count.toInt.toNat copies).flatten := by
  have inside : ∀ position ∈ positions, position < images.length := by
    cases asked with
    | last noComma read =>
        simpa using Reel.isEmpty_eq_false_iff.mp nonempty
    | scenes noComma read parsed => exact Scenes.lt_of_mem_parse parsed
  obtain ⟨copies, copied⟩ := whole.exists_copies inside
  have extended := whole.foldl_extend_toList copies count.toInt.toNat
  refine ⟨copies, _, whole.copies?_eq_some_iff.mp copied, ?_, extended⟩
  unfold duplicate Invocation.first
  simp only [normal, given, if_true, bind, Except.bind, copiesAsked_eq_ok_iff.mpr asked, copied]

/-- Asked for in no right way, copies are refused. -/
theorem duplicate_of_unasked
    (normal : inv.normal = true)
    (unasked : ∀ text count positions, inv.first? = some text →
      ¬ Asks images.length text count positions) :
    ∃ fault, duplicate view images inv = .error fault := by
  unfold duplicate Invocation.first
  simp only [normal, if_true, bind, Except.bind]
  cases given : inv.first? with
  | none => exact ⟨_, rfl⟩
  | some text =>
      cases asked : copiesAsked text images.length with
      | error fault => exact ⟨fault, by simp [asked]⟩
      | ok asking => exact absurd (copiesAsked_eq_ok_iff.mp asked) (unasked text _ _ given)

end ListOperator
end Darkroom
