import Darkroom.Proofs.Reel.Places

/-!
# Reels refine lists

A reel reached by any run of operations, through any handles and at any positions, behaves like the
list of its places: each operation acts on the places as the list operation of its name, and each
way of reading a reel reads the places.

Operations are split in two kinds.  An edit keeps the slots, so that handles stay meaningful over a
run of edits; the other operations drop all slots.
-/

namespace Darkroom
namespace Reel

variable {α : Type} {r : Reel α}

/-- An operation that keeps the slots.  `insert` puts an item before a position, `splice` replaces
the place of a handle, and `take` and `restore` empty and fill it. -/
inductive Edit (α : Type) where
  | push (item : α)
  | extend (items : List α)
  | append (other : Reel α)
  | insert (position : Nat) (item : α)
  | modify (h : Handle) (f : α → α)
  | modifyAt (position : Nat) (f : α → α)
  | updateAll (f : Nat → α → α)
  | take (h : Handle)
  | restore (h : Handle) (item : α)
  | splice (h : Handle) (items : List α)
  | remove (position : Nat)
  | removeFirst
  | removeLast
  | swap (i j : Nat)
  | reverse

/-- The reel after an edit.  An edit that is refused leaves the reel as it is. -/
def Edit.apply (r : Reel α) : Edit α → Reel α
  | .push item => (r.push item).2
  | .extend items => r.extend items
  | .append other => r.append other
  | .insert position item => ((r.insert position item).map Prod.snd).getD r
  | .modify h f => r.modify h f
  | .modifyAt position f => r.modifyAt position f
  | .updateAll f => r.updateAll f
  | .take h => (r.take h).2
  | .restore h item => r.restore h item
  | .splice h items => (r.splice h items).2
  | .remove position => (r.remove position).2
  | .removeFirst => r.removeFirst.2
  | .removeLast => r.removeLast.2
  | .swap i j => (r.swap i j).getD r
  | .reverse => r.reverse

/-- An operation on a reel: an edit, or one that drops everything there was. -/
inductive Command (α : Type) where
  | edit (edit : Edit α)
  | clear
  | replaceAll (items : List α)

/-- The reel after an operation. -/
def Command.apply (r : Reel α) : Command α → Reel α
  | .edit change => change.apply r
  | .clear => r.clear
  | .replaceAll items => r.replaceAll items

/-- The reel that a run of operations makes of the empty one. -/
def after (run : List (Command α)) : Reel α :=
  run.foldl Command.apply empty

namespace WellFormed

theorem edit
    (wellFormed : r.WellFormed)
    (edit : Edit α) :
    (edit.apply r).WellFormed := by
  cases edit with
  | push item => exact wellFormed.push item
  | extend items => exact wellFormed.extend items
  | append other => exact wellFormed.append other
  | insert position item =>
      cases inserted : r.insert position item with
      | none => simpa [Edit.apply, inserted] using wellFormed
      | some result => simpa [Edit.apply, inserted] using wellFormed.insert inserted
  | modify h f => exact wellFormed.sameFrame (.modify r h f)
  | modifyAt position f => exact wellFormed.sameFrame (.modifyAt r position f)
  | updateAll f => exact wellFormed.sameFrame (.updateAll r f)
  | take h => exact wellFormed.sameFrame (.put r h none)
  | restore h item => exact wellFormed.sameFrame (.put r h (some item))
  | splice h items => exact wellFormed.splice h items
  | remove position => exact wellFormed.remove position
  | removeFirst => exact wellFormed.removeFirst
  | removeLast => exact wellFormed.removeLast
  | swap i j =>
      cases swapped : r.swap i j with
      | none => simpa [Edit.apply, swapped] using wellFormed
      | some result => simpa [Edit.apply, swapped] using wellFormed.swap swapped
  | reverse => exact wellFormed.reverse

theorem command
    (wellFormed : r.WellFormed)
    (command : Command α) :
    (command.apply r).WellFormed := by
  cases command with
  | edit edit => exact wellFormed.edit edit
  | clear => exact WellFormed.clear r
  | replaceAll items => exact WellFormed.replaceAll r items

/-- Every run of operations ends in a well-formed reel. -/
theorem after
    (run : List (Command α)) :
    (Reel.after run).WellFormed := by
  unfold Reel.after
  have start : (Reel.empty : Reel α).WellFormed := empty
  revert start
  generalize (Reel.empty : Reel α) = r
  intro wellFormed
  induction run generalizing r with
  | nil => exact wellFormed
  | cons command run inductionHypothesis =>
      exact inductionHypothesis _ (wellFormed.command command)

end WellFormed

/-- The operations act on the places as on a list, and reading reads this list. -/
structure ActsAsList (r : Reel α) : Prop where
  /-- Pushing adds at the end. -/
  push : ∀ item, (r.push item).2.places = r.places ++ [some item]
  /-- Extending adds at the end, in order. -/
  extend : ∀ items, (r.extend items).places = r.places ++ items.map some
  /-- Appending adds the items that the other reel has, in order, and no gaps. -/
  append : ∀ run,
    (r.append (after run)).places = r.places ++ ((after run).places.filterMap id).map some
  /-- Inserting inside the list adds before the position. -/
  insert_inside : ∀ position item, position ≤ r.places.length →
    ∃ h r', r.insert position item = some (h, r') ∧
      r'.places = r.places.insertIdx position (some item)
  /-- Inserting beyond the end is refused. -/
  insert_outside : ∀ position item, r.places.length < position →
    r.insert position item = none
  /-- A handle is located where the order holds it, and there alone. -/
  located : ∀ h position, r.position? h = some position ↔ r.handleAt? position = some h
  /-- A handle in the order reads its place. -/
  get : ∀ h position, r.position? h = some position →
    r.places[position]? = some (r.get? h)
  /-- A change through a handle in the order changes its place. -/
  modify : ∀ h position f, r.position? h = some position →
    (r.modify h f).places = r.places.modify position (Option.map f)
  /-- A change through any other handle changes no place. -/
  modify_elsewhere : ∀ h f, r.position? h = none → (r.modify h f).places = r.places
  /-- A change at a position changes the place there. -/
  modifyAt : ∀ position f,
    (r.modifyAt position f).places = r.places.modify position (Option.map f)
  /-- Taking out gives the item at the place of the handle and leaves a gap. -/
  take : ∀ h position, r.position? h = some position →
    (r.take h).1 = (r.places[position]?).join ∧
      (r.take h).2.places = r.places.set position none
  /-- Taking out through any other handle changes no place. -/
  take_elsewhere : ∀ h, r.position? h = none → (r.take h).2.places = r.places
  /-- Putting back fills the place of the handle. -/
  restore : ∀ h position item, r.position? h = some position →
    (r.restore h item).places = r.places.set position (some item)
  /-- Putting back through any other handle changes no place. -/
  restore_elsewhere : ∀ h item, r.position? h = none → (r.restore h item).places = r.places
  /-- Splicing replaces the one place of the handle by the items in order. -/
  splice : ∀ h position items, r.position? h = some position →
    (r.splice h items).2.places =
      r.places.take position ++ items.map some ++ r.places.drop (position + 1)
  /-- Splicing at any other handle changes nothing. -/
  splice_elsewhere : ∀ h items, r.position? h = none → r.splice h items = ([], r)
  /-- Removing gives the item at the position and deletes the place there. -/
  remove : ∀ position,
    (r.remove position).1 = (r.places[position]?).join ∧
      (r.remove position).2.places = r.places.eraseIdx position
  /-- Removing the first place deletes the head. -/
  removeFirst : r.removeFirst.1 = r.places.head?.join ∧ r.removeFirst.2.places = r.places.tail
  /-- Removing the last place deletes the last entry. -/
  removeLast : r.removeLast.1 = r.places.getLast?.join ∧
    r.removeLast.2.places = r.places.dropLast
  /-- Swapping exchanges two places. -/
  swap_inside : ∀ i j, (iInside : i < r.places.length) → (jInside : j < r.places.length) →
    ∃ r', r.swap i j = some r' ∧
      r'.places = (r.places.set i r.places[j]).set j r.places[i]
  /-- Swapping with a position outside the list is refused. -/
  swap_outside : ∀ i j, r.places.length ≤ i ∨ r.places.length ≤ j → r.swap i j = none
  /-- Reversing reverses. -/
  reverse : r.reverse.places = r.places.reverse
  /-- Clearing leaves nothing. -/
  clear : r.clear.places = []
  /-- Replacing everything leaves the new items. -/
  replaceAll : ∀ items, (r.replaceAll items).places = items.map some
  /-- Changing every item changes the items in order, numbered from 0. -/
  updateAll : ∀ f, (r.updateAll f).places = updatePlaces f 0 r.places
  /-- Reading gives the items in order. -/
  toList : r.toList = r.places.filterMap id
  /-- Moving out gives the items in order. -/
  intoList : r.intoList = r.places.filterMap id
  /-- The length counts the places. -/
  length : r.length = r.places.length
  /-- A reel without places is empty. -/
  isEmpty : r.isEmpty = r.places.isEmpty
  /-- A position reads its place. -/
  at? : ∀ position, r.at? position = (r.places[position]?).join
  /-- The first item is read from the first place. -/
  first? : r.first? = r.places.head?.join
  /-- The last item is read from the last place. -/
  last? : r.last? = r.places.getLast?.join
  /-- An index means the position it equals, or equals when counted from the end. -/
  resolve? : ∀ index position, r.resolve? index = some position ↔
    position < r.places.length ∧
      ((position : Int) = index ∨ (position : Int) = r.places.length + index)
  /-- Copies are made of the items at the positions, when there is one at each. -/
  copies? : ∀ positions,
    r.copies? positions = positions.mapM fun position => (r.places[position]?).join

/-- After any run of operations, every operation acts as on a list. -/
theorem actsAsList_after
    (run : List (Command α)) :
    (after run).ActsAsList := by
  have wellFormed : (after run).WellFormed := .after run
  generalize after run = r at wellFormed
  have order {h position} (located : r.position? h = some position) :
      r.order[position]? = some h := getElem?_of_position? located
  have absent {h} (nowhere : r.position? h = none) : h ∉ r.order :=
    position?_eq_none_iff.mp nowhere
  constructor
  case push => exact wellFormed.push_places
  case extend => exact wellFormed.extend_places
  case append =>
    intro run
    rw [wellFormed.append_places (.after run), (WellFormed.after run).toList_eq]
  case insert_inside =>
    intro position item inside
    rw [length_places] at inside
    refine ⟨_, _, insert_eq_some_iff.mpr ⟨inside, rfl, rfl⟩, ?_⟩
    exact wellFormed.insert_places (insert_eq_some_iff.mpr ⟨inside, rfl, rfl⟩)
  case insert_outside => exact fun position item => insert_eq_none_iff.mpr
  case located => exact fun h position => wellFormed.position?_eq_some_iff
  case get =>
    intro h position located
    rw [getElem?_places, order located]
    rfl
  case modify => exact fun h position f located => wellFormed.modify_places (order located) f
  case modify_elsewhere =>
    exact fun h f nowhere => wellFormed.modify_places_of_not_mem (absent nowhere) f
  case modifyAt => exact wellFormed.modifyAt_places
  case take =>
    exact fun h position located =>
      ⟨WellFormed.get?_of_found (order located), wellFormed.put_places (order located) none⟩
  case take_elsewhere =>
    exact fun h nowhere => wellFormed.put_places_of_not_mem (absent nowhere) none
  case restore =>
    exact fun h position item located => wellFormed.put_places (order located) (some item)
  case restore_elsewhere =>
    exact fun h item nowhere => wellFormed.put_places_of_not_mem (absent nowhere) (some item)
  case splice => exact fun h position items located => wellFormed.splice_places located items
  case splice_elsewhere => exact fun h items nowhere => splice_of_not_located nowhere items
  case remove => exact fun position => ⟨remove_fst r position, wellFormed.remove_places position⟩
  case removeFirst =>
    rw [Reel.removeFirst, remove_fst, wellFormed.remove_places, List.head?_eq_getElem?,
      List.eraseIdx_zero]
    exact ⟨rfl, rfl⟩
  case removeLast =>
    rw [removeLast_eq, remove_fst, wellFormed.remove_places, List.getLast?_eq_getElem?,
      length_places, ← List.eraseIdx_length_sub_one, length_places]
    exact ⟨rfl, rfl⟩
  case swap_inside =>
    intro i j iInside jInside
    have inside : i < r.order.length ∧ j < r.order.length := by simp_all [length]
    obtain ⟨r', swapped⟩ : ∃ r', r.swap i j = some r' :=
      ⟨_, swap_eq_some_iff.mpr ⟨inside.1, inside.2, rfl⟩⟩
    obtain ⟨_, _, places⟩ := swap_places swapped
    exact ⟨r', swapped, places⟩
  case swap_outside => exact fun i j => swap_eq_none_iff.mpr
  case reverse => exact reverse_places r
  case clear => rfl
  case replaceAll => exact replaceAll_places r
  case updateAll => exact wellFormed.updateAll_places
  case toList => exact wellFormed.toList_eq
  case intoList => exact wellFormed.intoList_eq
  case length => exact (length_places r).symm
  case isEmpty => exact isEmpty_eq r
  case at? => exact at?_eq r
  case first? => exact first?_eq r
  case last? => exact last?_eq r
  case resolve? => exact fun index position => resolve?_eq_some_iff
  case copies? => exact copies?_eq r

end Reel
end Darkroom
