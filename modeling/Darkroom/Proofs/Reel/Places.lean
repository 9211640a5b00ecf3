import Darkroom.Proofs.Reel.WellFormed
import Darkroom.Proofs.Table
import Mathlib.Data.List.InsertIdx

/-!
# What the operations do to the places

The places of a reel are its items in list order, with a gap where an item is taken out.  Every
operation on a well-formed reel acts on the places as the list operation of its name, and every way
of reading a reel reads the places.
-/

namespace Darkroom
namespace Reel

variable {α : Type} {r : Reel α}

/-! ## Reading -/

@[simp] theorem length_places
    (r : Reel α) :
    r.places.length = r.length := by
  simp [places, length]

theorem isEmpty_eq
    (r : Reel α) :
    r.isEmpty = r.places.isEmpty := by
  simp [isEmpty, places]

theorem getElem?_places
    (r : Reel α)
    (position : Nat) :
    r.places[position]? = (r.order[position]?).map r.get? := by
  simp [places]

theorem at?_eq
    (r : Reel α)
    (position : Nat) :
    r.at? position = (r.places[position]?).join := by
  rw [getElem?_places, at?, handleAt?]
  cases r.order[position]? <;> rfl

theorem first?_eq
    (r : Reel α) :
    r.first? = r.places.head?.join := by
  rw [first?, at?_eq, List.head?_eq_getElem?]

theorem last?_eq
    (r : Reel α) :
    r.last? = r.places.getLast?.join := by
  rw [last?, List.getLast?_eq_getElem?, length_places, ← at?_eq]
  split
  · next none =>
    have empty : r.order = [] := by simpa [isEmpty] using none
    simp [at?, handleAt?, empty]
  · rfl

/-- An index means the position that it equals, or equals when counted from the end. -/
theorem resolve?_eq_some_iff
    {index : Int}
    {position : Nat} :
    r.resolve? index = some position ↔
      position < r.places.length ∧
        ((position : Int) = index ∨ (position : Int) = r.places.length + index) := by
  rw [length_places]
  by_cases negative : index < 0 <;> simp only [resolve?, negative, if_true, if_false] <;>
    split <;> simp only [Option.some.injEq, reduceCtorEq, false_iff] <;> omega

theorem copies?_eq
    (r : Reel α)
    (positions : List Nat) :
    r.copies? positions = positions.mapM fun position => (r.places[position]?).join := by
  rw [copies?]
  exact congrArg (positions.mapM ·) (funext r.at?_eq)

/-- Reading the slots without a look at the generations reads the places. -/
theorem WellFormed.toList_eq
    (wellFormed : r.WellFormed) :
    r.toList = r.places.filterMap id := by
  rw [toList, places, List.filterMap_map]
  exact List.filterMap_congr fun h mem => AccountsFor.itemAt?_eq_get? wellFormed mem

/-- Moving the items out one after the other finds the items that a reading finds. -/
theorem moveOut_eq
    (slots : List (Slot α))
    {handles : List Handle}
    (nodup : (handles.map Handle.slot).Nodup) :
    moveOut slots handles =
      handles.filterMap fun h => (slots[h.slot]?).bind Slot.item := by
  induction handles generalizing slots with
  | nil => rfl
  | cons h rest inductionHypothesis =>
      rw [List.map_cons, List.nodup_cons] at nodup
      rw [moveOut]
      split
      · next generation item found =>
        rw [inductionHypothesis _ nodup.2, List.filterMap_cons]
        simp only [found, Option.bind_some, List.cons.injEq, true_and]
        apply List.filterMap_congr
        intro g mem
        have other : h.slot ≠ g.slot :=
          fun same => nodup.1 (same ▸ List.mem_map_of_mem mem)
        rw [List.getElem?_set_ne other]
      · next noItem =>
        have nothing : (slots[h.slot]?).bind Slot.item = none := by
          cases found : slots[h.slot]? with
          | none => rfl
          | some s =>
              obtain ⟨generation, item?⟩ := s
              cases item? with
              | none => rfl
              | some item => exact absurd found (noItem generation item)
        rw [inductionHypothesis _ nodup.2, List.filterMap_cons, nothing]

theorem WellFormed.intoList_eq
    (wellFormed : r.WellFormed) :
    r.intoList = r.places.filterMap id := by
  rw [intoList, moveOut_eq _ (AccountsFor.nodup wellFormed), ← wellFormed.toList_eq]
  rfl

/-! ## Adding -/

namespace WellFormed

theorem push_places
    (wellFormed : r.WellFormed)
    (item : α) :
    (r.push item).2.places = r.places ++ [some item] := by
  rw [push_eq]
  change (r.order ++ [(r.allocate item).1]).map (r.allocate item).2.get? = _
  rw [List.map_append, List.map_singleton, AccountsFor.allocate_get?_self wellFormed]
  congr 1
  exact List.map_congr_left fun h mem => AccountsFor.allocate_get?_of_mem wellFormed item mem

theorem extend_places
    (wellFormed : r.WellFormed)
    (items : List α) :
    (r.extend items).places = r.places ++ items.map some := by
  unfold Reel.extend
  induction items generalizing r with
  | nil => simp
  | cons item items inductionHypothesis =>
      rw [List.foldl_cons, inductionHypothesis (wellFormed.push item),
        wellFormed.push_places]
      simp

theorem append_places
    (wellFormed : r.WellFormed)
    {other : Reel α}
    (otherWellFormed : other.WellFormed) :
    (r.append other).places = r.places ++ other.toList.map some := by
  rw [Reel.append, wellFormed.extend_places, otherWellFormed.intoList_eq,
    otherWellFormed.toList_eq]

theorem insert_places
    (wellFormed : r.WellFormed)
    {position : Nat}
    {item : α}
    {h : Handle}
    {r' : Reel α}
    (inserted : r.insert position item = some (h, r')) :
    r'.places = r.places.insertIdx position (some item) := by
  obtain ⟨-, rfl, rfl⟩ := insert_eq_some_iff.mp inserted
  change (r.order.insertIdx position (r.allocate item).1).map (r.allocate item).2.get? = _
  rw [List.map_insertIdx, AccountsFor.allocate_get?_self wellFormed]
  congr 1
  exact List.map_congr_left fun h mem => AccountsFor.allocate_get?_of_mem wellFormed item mem

end WellFormed

theorem insert_eq_none_iff
    {position : Nat}
    {item : α} :
    r.insert position item = none ↔ r.places.length < position := by
  rw [length_places]
  unfold insert
  split <;> simp_all

theorem ofList_places
    (items : List α) :
    (ofList items).places = items.map some := by
  rw [ofList, WellFormed.empty.extend_places]
  rfl

theorem replaceAll_places
    (r : Reel α)
    (items : List α) :
    (r.replaceAll items).places = items.map some :=
  ofList_places items

/-! ## Taking out, putting back and changing -/

namespace WellFormed

/-- A change through a handle changes the place of the handle. -/
theorem put_places
    (wellFormed : r.WellFormed)
    {h : Handle}
    {position : Nat}
    (found : r.order[position]? = some h)
    (item : Option α) :
    (r.put h item).places = r.places.set position item := by
  have mem : h ∈ r.order := List.mem_of_getElem? found
  obtain ⟨s, live⟩ := AccountsFor.exists_live? wellFormed mem
  apply List.ext_getElem?
  intro other
  rw [getElem?_places, put_order, List.getElem?_set, getElem?_places, length_places]
  split
  · next same =>
    subst same
    have inside : position < r.length := (List.getElem?_eq_some_iff.mp found).1
    rw [found, if_pos inside, Option.map_some, put_get?_self live]
  · next different =>
    cases there : r.order[other]? with
    | none => rfl
    | some g =>
        have gMem : g ∈ r.order := List.mem_of_getElem? there
        have gDifferent : g ≠ h := by
          rintro rfl
          have first := wellFormed.position?_eq_some_iff.mpr found
          have second := wellFormed.position?_eq_some_iff.mpr there
          exact different (Option.some.inj (first.symm.trans second))
        rw [Option.map_some, Option.map_some,
          AccountsFor.put_get?_of_ne wellFormed gMem item gDifferent]

/-- A change through a handle that is not in the order changes no place, even when it reaches a
slot that is free. -/
theorem put_places_of_not_mem
    (wellFormed : r.WellFormed)
    {h : Handle}
    (absent : h ∉ r.order)
    (item : Option α) :
    (r.put h item).places = r.places := by
  rw [places, put_order]
  apply List.map_congr_left
  intro g mem
  exact AccountsFor.put_get?_of_ne wellFormed mem item fun same => absent (same ▸ mem)

theorem get?_of_found
    {h : Handle}
    {position : Nat}
    (found : r.order[position]? = some h) :
    r.get? h = (r.places[position]?).join := by
  rw [getElem?_places, found]
  rfl

theorem modify_places
    (wellFormed : r.WellFormed)
    {h : Handle}
    {position : Nat}
    (found : r.order[position]? = some h)
    (f : α → α) :
    (r.modify h f).places = r.places.modify position (Option.map f) := by
  have place : r.places[position]? = some (r.get? h) := by rw [getElem?_places, found]; rfl
  have inside := (List.getElem?_eq_some_iff.mp place).1
  rw [List.modify_eq_set, place]
  cases item : r.get? h with
  | none =>
      have unchanged : r.modify h f = r := by simp [Reel.modify, item]
      rw [unchanged]
      apply List.ext_getElem?
      intro other
      rw [List.getElem?_set]
      split
      · next same => subst same; simp [place, item]
      · rfl
  | some a =>
      have changed : r.modify h f = r.put h (some (f a)) := by simp [Reel.modify, item]
      rw [changed, wellFormed.put_places found]
      rfl

theorem modify_places_of_not_mem
    (wellFormed : r.WellFormed)
    {h : Handle}
    (absent : h ∉ r.order)
    (f : α → α) :
    (r.modify h f).places = r.places := by
  unfold Reel.modify
  split
  · exact wellFormed.put_places_of_not_mem absent _
  · rfl

theorem modifyAt_places
    (wellFormed : r.WellFormed)
    (position : Nat)
    (f : α → α) :
    (r.modifyAt position f).places = r.places.modify position (Option.map f) := by
  cases found : r.order[position]? with
  | none =>
      have outside : r.places.length ≤ position := by
        rw [length_places]
        exact List.getElem?_eq_none_iff.mp found
      simp [Reel.modifyAt, handleAt?, found, List.modify_eq_self outside]
  | some h => simp [Reel.modifyAt, handleAt?, found, wellFormed.modify_places found]

end WellFormed

/-! ## Replacing, removing and reordering -/

namespace WellFormed

/-- The other handles name what they named before. -/
theorem splice_get?_of_mem
    (wellFormed : r.WellFormed)
    {h : Handle}
    {position : Nat}
    (located : r.position? h = some position)
    (items : List α)
    {g : Handle}
    (mem : g ∈ r.order.eraseIdx position) :
    (r.splice h items).2.get? g = r.get? g := by
  have accounts := wellFormed.accountsFor_cons (getElem?_of_position? located)
  rw [splice_of_located located]
  exact (accounts.release.allocateAll_get?_of_mem items mem).trans
    (accounts.release_get?_of_mem mem)

/-- The new handles name the items in their order. -/
theorem splice_map_get?
    (wellFormed : r.WellFormed)
    {h : Handle}
    {position : Nat}
    (located : r.position? h = some position)
    (items : List α) :
    (r.splice h items).1.map (r.splice h items).2.get? = items.map some := by
  have accounts := wellFormed.accountsFor_cons (getElem?_of_position? located)
  rw [splice_of_located located]
  exact accounts.release.allocateAll_map_get? items

theorem splice_places
    (wellFormed : r.WellFormed)
    {h : Handle}
    {position : Nat}
    (located : r.position? h = some position)
    (items : List α) :
    (r.splice h items).2.places =
      r.places.take position ++ items.map some ++ r.places.drop (position + 1) := by
  have order : (r.splice h items).2.order =
      r.order.take position ++ (r.splice h items).1 ++ r.order.drop (position + 1) := by
    rw [splice_of_located located]
  have others : ∀ g ∈ r.order.take position ++ r.order.drop (position + 1),
      (r.splice h items).2.get? g = r.get? g := by
    rw [← List.eraseIdx_eq_take_drop_succ]
    exact fun g mem => wellFormed.splice_get?_of_mem located items mem
  rw [places, order, List.map_append, List.map_append, wellFormed.splice_map_get? located,
    places, ← List.map_take, ← List.map_drop]
  congr 1
  · congr 1
    exact List.map_congr_left fun g mem => others g (List.mem_append_left _ mem)
  · exact List.map_congr_left fun g mem => others g (List.mem_append_right _ mem)

theorem remove_places
    (wellFormed : r.WellFormed)
    (position : Nat) :
    (r.remove position).2.places = r.places.eraseIdx position := by
  cases found : r.order[position]? with
  | none =>
      rw [remove_of_not_found found, List.eraseIdx_of_length_le]
      rw [length_places]
      exact List.getElem?_eq_none_iff.mp found
  | some h =>
      have accounts := wellFormed.accountsFor_cons found
      rw [remove_of_found found, places, places, List.eraseIdx_map]
      exact List.map_congr_left fun g mem => accounts.release_get?_of_mem mem

end WellFormed

theorem remove_fst
    (r : Reel α)
    (position : Nat) :
    (r.remove position).1 = (r.places[position]?).join := by
  rw [getElem?_places]
  cases found : r.order[position]? with
  | none => rw [remove_of_not_found found]; rfl
  | some h => rw [remove_of_found found]; rfl

theorem swap_places
    {i j : Nat}
    {r' : Reel α}
    (swapped : r.swap i j = some r') :
    ∃ (iInside : i < r.places.length) (jInside : j < r.places.length),
      r'.places = (r.places.set i r.places[j]).set j r.places[i] := by
  obtain ⟨iInside, jInside, rfl⟩ := swap_eq_some_iff.mp swapped
  refine ⟨by simpa [length] using iInside, by simpa [length] using jInside, ?_⟩
  change ((r.order.set i r.order[j]).set j r.order[i]).map r.get? = _
  simp [List.map_set, places]

theorem swap_eq_none_iff
    {i j : Nat} :
    r.swap i j = none ↔ r.places.length ≤ i ∨ r.places.length ≤ j := by
  rw [length_places]
  by_cases iInside : i < r.order.length <;> by_cases jInside : j < r.order.length <;>
    simp [swap, length, iInside, jInside] <;> omega

theorem reverse_places
    (r : Reel α) :
    r.reverse.places = r.places.reverse := by
  change r.order.reverse.map r.get? = _
  rw [List.map_reverse, places]

/-! ## Changing every item -/

/-- The items at their places changed one after the other, each with its number among the items. -/
def updatePlaces (f : Nat → α → α) : Nat → List (Option α) → List (Option α)
  | _, [] => []
  | n, none :: rest => none :: updatePlaces f n rest
  | n, some item :: rest => some (f n item) :: updatePlaces f (n + 1) rest

/-- The rank of a slot is the position of the handle that uses it. -/
theorem WellFormed.rank?_eq_some_iff
    (wellFormed : r.WellFormed)
    {slot position : Nat} :
    r.rank? slot = some position ↔ (r.order.map Handle.slot)[position]? = some slot := by
  rw [rank?, ← List.mk_mem_zipIdx_iff_getElem?, ← List.mem_reverse]
  constructor
  · intro found
    obtain ⟨before, behind, split, -⟩ := List.lookup_eq_some_iff.mp found
    rw [split]
    exact List.mem_append_right _ List.mem_cons_self
  · intro mem
    apply Table.lookup_eq_some_of_mem _ mem
    rw [List.map_reverse, List.nodup_reverse, List.zipIdx_map_fst]
    exact AccountsFor.nodup wellFormed

theorem WellFormed.rank?_getElem
    (wellFormed : r.WellFormed)
    {position : Nat}
    (inside : position < (r.order.map Handle.slot).length) :
    r.rank? (r.order.map Handle.slot)[position] = some position :=
  wellFormed.rank?_eq_some_iff.mpr (List.getElem?_eq_getElem inside)

theorem WellFormed.isSome_rank?_iff
    (wellFormed : r.WellFormed)
    {slot : Nat} :
    (r.rank? slot).isSome ↔ slot ∈ r.order.map Handle.slot := by
  rw [Option.isSome_iff_exists, List.mem_iff_getElem?]
  exact exists_congr fun position => wellFormed.rank?_eq_some_iff

/-- The slots of some handles that hold an item. -/
def fullSlots (r : Reel α) (handles : List Handle) : List Nat :=
  (handles.map Handle.slot).filter fun slot => (r.itemAt? slot).isSome

theorem mem_slots_of_mem_fullSlots
    {handles : List Handle}
    {slot : Nat}
    (mem : slot ∈ r.fullSlots handles) :
    slot ∈ handles.map Handle.slot :=
  (List.mem_filter.mp mem).1

theorem fullSlots_congr
    {r' : Reel α}
    {handles : List Handle}
    (same : ∀ h ∈ handles, r'.slots[h.slot]? = r.slots[h.slot]?) :
    r'.fullSlots handles = r.fullSlots handles := by
  apply List.filter_congr
  intro slot mem
  obtain ⟨h, inUse, rfl⟩ := List.mem_map.mp mem
  simp only [itemAt?, same h inUse]

theorem WellFormed.occupied_perm
    (wellFormed : r.WellFormed) :
    r.occupied.Perm (r.fullSlots r.order) := by
  have slotsNodup : (r.order.map Handle.slot).Nodup := AccountsFor.nodup wellFormed
  refine (List.mergeSort_perm _ _).trans ?_
  rw [fullSlots, List.perm_ext_iff_of_nodup (List.nodup_range.filter _) (slotsNodup.filter _)]
  intro slot
  simp only [List.mem_filter, List.mem_range, Bool.and_eq_true, wellFormed.isSome_rank?_iff]
  constructor
  · rintro ⟨-, used, full⟩
    exact ⟨used, full⟩
  · rintro ⟨used, full⟩
    obtain ⟨h, mem, rfl⟩ := List.mem_map.mp used
    exact ⟨AccountsFor.slot_lt wellFormed mem, used, full⟩

theorem WellFormed.fullSlots_sorted
    (wellFormed : r.WellFormed) :
    (r.fullSlots r.order).Pairwise fun a b =>
      decide ((r.rank? a).getD 0 ≤ (r.rank? b).getD 0) = true := by
  apply List.Pairwise.filter
  rw [List.pairwise_iff_getElem]
  intro i j iInside jInside before
  rw [wellFormed.rank?_getElem iInside, wellFormed.rank?_getElem jInside]
  simpa using Nat.le_of_lt before

/-- Sorting the slots in use by rank gives the slots in list order. -/
theorem WellFormed.occupied_eq
    (wellFormed : r.WellFormed) :
    r.occupied = r.fullSlots r.order := by
  have sorted : r.occupied.Pairwise fun a b =>
      decide ((r.rank? a).getD 0 ≤ (r.rank? b).getD 0) = true :=
    List.pairwise_mergeSort (fun a b c first second => by simp_all; omega)
      (fun a b => by simp; omega) _
  refine wellFormed.occupied_perm.eq_of_pairwise ?_ sorted wellFormed.fullSlots_sorted
  -- Two slots of one rank are one slot.
  intro a b aMem bMem first second
  have aUsed := mem_slots_of_mem_fullSlots (wellFormed.occupied_perm.mem_iff.mp aMem)
  have bUsed := mem_slots_of_mem_fullSlots bMem
  obtain ⟨i, iInside, rfl⟩ := List.getElem_of_mem aUsed
  obtain ⟨j, jInside, rfl⟩ := List.getElem_of_mem bUsed
  rw [wellFormed.rank?_getElem iInside, wellFormed.rank?_getElem jInside] at first second
  simp only [Option.getD_some, decide_eq_true_eq] at first second
  have same : i = j := by omega
  subst same
  rfl

theorem modifySlot_slots_of_ne
    (r : Reel α)
    {slot other : Nat}
    (f : α → α)
    (different : slot ≠ other) :
    (r.modifySlot slot f).slots[other]? = r.slots[other]? := by
  simp [modifySlot, different]

theorem modifySlot_slots_self
    {h : Handle}
    {item : Option α}
    (found : r.slots[h.slot]? = some ⟨h.generation, item⟩)
    (f : α → α) :
    (r.modifySlot h.slot f).slots[h.slot]? = some ⟨h.generation, item.map f⟩ := by
  simp [modifySlot, found]

/-- The items in numbered slots changed one after the other. -/
def updateSlots (f : Nat → α → α) (numbered : List (Nat × Nat)) (r : Reel α) : Reel α :=
  numbered.foldl (fun r entry => r.modifySlot entry.1 (f entry.2)) r

theorem updateAll_eq
    (r : Reel α)
    (f : Nat → α → α) :
    r.updateAll f = updateSlots f r.occupied.zipIdx r := rfl

@[simp] theorem updateSlots_order
    (f : Nat → α → α)
    (numbered : List (Nat × Nat))
    (r : Reel α) :
    (updateSlots f numbered r).order = r.order := by
  induction numbered generalizing r with
  | nil => rfl
  | cons entry rest inductionHypothesis => exact inductionHypothesis _

theorem updateSlots_slots_of_not_mem
    (f : Nat → α → α)
    {numbered : List (Nat × Nat)}
    {slot : Nat}
    (absent : slot ∉ numbered.map Prod.fst) :
    (updateSlots f numbered r).slots[slot]? = r.slots[slot]? := by
  induction numbered generalizing r with
  | nil => rfl
  | cons entry rest inductionHypothesis =>
      simp only [List.map_cons, List.mem_cons, not_or] at absent
      exact (inductionHypothesis absent.2).trans
        (modifySlot_slots_of_ne r (f entry.2) (Ne.symm absent.1))

/-- A handle does not see what happens to the slots of others. -/
theorem updateSlots_get?_of_not_mem
    (f : Nat → α → α)
    {h : Handle}
    {handles : List Handle}
    (absent : h.slot ∉ handles.map Handle.slot)
    (r' : Reel α)
    (n : Nat) :
    (updateSlots f ((r'.fullSlots handles).zipIdx n) r).get? h = r.get? h := by
  apply get?_congr
  apply updateSlots_slots_of_not_mem
  rw [List.zipIdx_map_fst]
  exact fun mem => absent (mem_slots_of_mem_fullSlots mem)

/-- Changing the full slots of some handles in order, with their numbers from `n` on, changes the
items of the handles in order. -/
theorem updateSlots_map_get?
    (f : Nat → α → α)
    {handles : List Handle}
    (nodup : (handles.map Handle.slot).Nodup)
    (live : ∀ h ∈ handles, r.slots[h.slot]? = some ⟨h.generation, r.get? h⟩)
    (n : Nat) :
    handles.map (updateSlots f ((r.fullSlots handles).zipIdx n) r).get? =
      updatePlaces f n (handles.map r.get?) := by
  induction handles generalizing r n with
  | nil => rfl
  | cons h rest inductionHypothesis =>
      rw [List.map_cons, List.nodup_cons] at nodup
      have found := live h List.mem_cons_self
      have restLive := fun g mem => live g (List.mem_cons_of_mem h mem)
      have item : r.itemAt? h.slot = r.get? h := by simp [itemAt?, found]
      cases place : r.get? h with
      | none =>
          have slots : r.fullSlots (h :: rest) = r.fullSlots rest := by
            simp [fullSlots, item, place]
          rw [slots, List.map_cons, List.map_cons, place, updatePlaces,
            updateSlots_get?_of_not_mem f nodup.1, place, inductionHypothesis nodup.2 restLive]
      | some a =>
          have slots : r.fullSlots (h :: rest) = h.slot :: r.fullSlots rest := by
            simp [fullSlots, item, place]
          have others : ∀ g ∈ rest,
              (r.modifySlot h.slot (f n)).slots[g.slot]? = r.slots[g.slot]? := by
            intro g mem
            apply modifySlot_slots_of_ne
            exact fun same => nodup.1 (same ▸ List.mem_map_of_mem mem)
          have changed : (r.modifySlot h.slot (f n)).get? h = some (f n a) := by
            rw [place] at found
            exact get?_of_slot (modifySlot_slots_self found (f n))
          have later := inductionHypothesis (r := r.modifySlot h.slot (f n)) nodup.2
            (fun g mem => by rw [others g mem, get?_congr (others g mem), restLive g mem])
            (n + 1)
          have restPlaces : rest.map (r.modifySlot h.slot (f n)).get? = rest.map r.get? :=
            List.map_congr_left fun g mem => get?_congr (others g mem)
          have step : updateSlots f ((r.fullSlots (h :: rest)).zipIdx n) r =
              updateSlots f (((r.modifySlot h.slot (f n)).fullSlots rest).zipIdx (n + 1))
                (r.modifySlot h.slot (f n)) := by
            rw [slots, ← fullSlots_congr others]
            rfl
          rw [step, List.map_cons, updateSlots_get?_of_not_mem f nodup.1, changed, later,
            restPlaces, List.map_cons, place, updatePlaces]

theorem WellFormed.updateAll_places
    (wellFormed : r.WellFormed)
    (f : Nat → α → α) :
    (r.updateAll f).places = updatePlaces f 0 r.places := by
  have live : ∀ h ∈ r.order, r.slots[h.slot]? = some ⟨h.generation, r.get? h⟩ := by
    intro h mem
    obtain ⟨s, found, generation⟩ := AccountsFor.live wellFormed h mem
    have named : r.live? h = some s := live?_eq_some_iff.mpr ⟨found, generation⟩
    simp [found, get?, named, ← generation]
  rw [updateAll_eq, places, updateSlots_order, wellFormed.occupied_eq]
  exact updateSlots_map_get? f (AccountsFor.nodup wellFormed) live 0

end Reel
end Darkroom
