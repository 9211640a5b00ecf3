import Darkroom.Proofs.Reel.Places

/-!
# Whole reels

A reel is whole when it is well-formed and no item is taken out of its place.  Then reading it gives
one item for each place.  A place that is open for a while, because its item is taken out, is closed
again by putting an item back or by replacing the place.
-/

namespace Darkroom
namespace Reel

variable {α : Type} {r : Reel α}

/-- The reel is well-formed, and every place holds an item. -/
structure Whole (r : Reel α) : Prop where
  /-- The reel is well-formed. -/
  wellFormed : r.WellFormed
  /-- No item is taken out. -/
  noGap : none ∉ r.places

/-- A well-formed reel is whole when reading it gives one item for each place. -/
theorem WellFormed.whole_iff
    (wellFormed : r.WellFormed) :
    r.Whole ↔ r.toList.length = r.length := by
  rw [wellFormed.toList_eq, ← length_places, List.filterMap_length_eq_length]
  constructor
  · intro whole place mem
    exact Option.isSome_iff_ne_none.mpr fun gap => whole.noGap (gap ▸ mem)
  · intro items
    exact ⟨wellFormed, fun gap => by simpa using items none gap⟩

/-- A list without gaps is the list of its items. -/
theorem map_some_filterMap_id
    {places : List (Option α)}
    (noGap : none ∉ places) :
    (places.filterMap id).map some = places := by
  induction places with
  | nil => rfl
  | cons place rest inductionHypothesis =>
      rw [List.mem_cons, not_or] at noGap
      cases place with
      | none => exact absurd rfl noGap.1
      | some item => exact congrArg (List.cons (some item)) (inductionHypothesis noGap.2)

/-- Reading gives the items when the places hold nothing else. -/
theorem WellFormed.toList_of_places
    (wellFormed : r.WellFormed)
    {items : List α}
    (places : r.places = items.map some) :
    r.toList = items := by
  rw [wellFormed.toList_eq, places, List.filterMap_map]
  exact List.filterMap_some

/-! ## Places that are open for a while -/

@[simp] theorem take_order
    (r : Reel α)
    (h : Handle) :
    (r.take h).2.order = r.order :=
  put_order r h none

namespace WellFormed

variable {h : Handle} {position : Nat}

theorem take
    (wellFormed : r.WellFormed)
    (h : Handle) :
    (r.take h).2.WellFormed :=
  wellFormed.sameFrame (.put r h none)

theorem take_places
    (wellFormed : r.WellFormed)
    (found : r.order[position]? = some h) :
    (r.take h).2.places = r.places.set position none :=
  wellFormed.put_places found none

theorem take_places_of_not_mem
    (wellFormed : r.WellFormed)
    (absent : h ∉ r.order) :
    (r.take h).2.places = r.places :=
  wellFormed.put_places_of_not_mem absent none

/-- Taking an item out and putting one into its place. -/
theorem restore_take_places
    (wellFormed : r.WellFormed)
    (found : r.order[position]? = some h)
    (item : α) :
    ((r.take h).2.restore h item).places = r.places.set position (some item) := by
  have still : (r.take h).2.order[position]? = some h := by rwa [take_order]
  rw [Reel.restore, (wellFormed.take h).put_places still, wellFormed.take_places found,
    List.set_set]

/-- Taking an item out and replacing its place. -/
theorem splice_take_places
    (wellFormed : r.WellFormed)
    (found : r.order[position]? = some h)
    (items : List α) :
    ((r.take h).2.splice h items).2.places =
      r.places.take position ++ items.map some ++ r.places.drop (position + 1) := by
  have still : (r.take h).2.order[position]? = some h := by rwa [take_order]
  have located := (wellFormed.take h).position?_eq_some_iff.mpr still
  rw [(wellFormed.take h).splice_places located, wellFormed.take_places found,
    List.take_set_of_le (Nat.le_refl _), List.drop_set_of_lt (Nat.lt_succ_self _)]

end WellFormed

/-! ## Items that were there -/

theorem mem_toList_of_get?
    {h : Handle}
    {item : α}
    (listed : h ∈ r.order)
    (found : r.get? h = some item) :
    item ∈ r.toList := by
  obtain ⟨slot, live, held⟩ := Option.bind_eq_some_iff.mp found
  refine List.mem_filterMap.mpr ⟨h, listed, ?_⟩
  rw [itemAt?, (live?_eq_some_iff.mp live).1]
  exact held

theorem mem_toList_of_at?
    {position : Nat}
    {item : α}
    (found : r.at? position = some item) :
    item ∈ r.toList := by
  obtain ⟨h, listed, held⟩ := Option.bind_eq_some_iff.mp found
  exact mem_toList_of_get? (List.mem_of_getElem? listed) held

/-- Copies are copies of items. -/
theorem copies?_subset
    {positions : List Nat}
    {copies : List α}
    (copied : r.copies? positions = some copies) :
    copies ⊆ r.toList := by
  induction positions generalizing copies with
  | nil =>
      obtain rfl := Option.some.inj copied
      exact List.nil_subset _
  | cons position rest inductionHypothesis =>
      rw [Reel.copies?, List.mapM_cons] at copied
      obtain ⟨item, found, copied⟩ := Option.bind_eq_some_iff.mp copied
      obtain ⟨items, others, copied⟩ := Option.bind_eq_some_iff.mp copied
      obtain rfl := Option.some.inj copied
      exact List.cons_subset.mpr ⟨mem_toList_of_at? found, inductionHypothesis others⟩

/-- A whole reel that holds none but the items of another. -/
structure Picked (r r' : Reel α) : Prop where
  /-- It is whole. -/
  whole : r'.Whole
  /-- Its items were there. -/
  subset : r'.toList ⊆ r.toList

theorem Picked.trans
    {r' r'' : Reel α}
    (first : r.Picked r')
    (second : r'.Picked r'') :
    r.Picked r'' :=
  ⟨second.whole, List.Subset.trans second.subset first.subset⟩

namespace Whole

/-- The places are the items that reading gives. -/
theorem places_eq
    (whole : r.Whole) :
    r.places = r.toList.map some := by
  rw [whole.wellFormed.toList_eq, map_some_filterMap_id whole.noGap]

theorem isEmpty_toList
    (whole : r.Whole) :
    r.isEmpty = r.toList.isEmpty := by
  rw [isEmpty_eq, whole.places_eq, List.isEmpty_map]

theorem mem_toList_iff
    (whole : r.Whole)
    {item : α} :
    item ∈ r.toList ↔ some item ∈ r.places := by
  simp [whole.places_eq]

theorem empty : (empty : Reel α).Whole :=
  ⟨.empty, List.not_mem_nil⟩

theorem none_not_mem_updatePlaces
    (f : Nat → α → α)
    (n : Nat)
    {places : List (Option α)}
    (noGap : none ∉ places) :
    none ∉ updatePlaces f n places := by
  induction places generalizing n with
  | nil => exact noGap
  | cons place rest inductionHypothesis =>
      rw [List.mem_cons, not_or] at noGap
      cases place with
      | none => exact absurd rfl noGap.1
      | some item =>
          rw [updatePlaces, List.mem_cons, not_or]
          exact ⟨(Option.some_ne_none _).symm, inductionHypothesis (n + 1) noGap.2⟩

/-- Reels whose places hold items that were there before are whole. -/
theorem of_subset
    (whole : r.Whole)
    {r' : Reel α}
    (wellFormed : r'.WellFormed)
    (subset : ∀ place ∈ r'.places, place ∈ r.places ∨ place.isSome) :
    r'.Whole := by
  refine ⟨wellFormed, fun gap => ?_⟩
  rcases subset none gap with before | isSome
  · exact whole.noGap before
  · cases isSome

theorem picked_self
    (whole : r.Whole) :
    r.Picked r :=
  ⟨whole, List.Subset.refl _⟩

/-- Places that were there hold items that were there. -/
theorem picked
    (whole : r.Whole)
    {r' : Reel α}
    (wellFormed : r'.WellFormed)
    (places : r'.places ⊆ r.places) :
    r.Picked r' := by
  have whole' : r'.Whole := whole.of_subset wellFormed fun place mem => .inl (places mem)
  exact ⟨whole', fun item mem => whole.mem_toList_iff.mpr (places (whole'.mem_toList_iff.mp mem))⟩

theorem extend
    (whole : r.Whole)
    (items : List α) :
    (r.extend items).Whole := by
  refine whole.of_subset (whole.wellFormed.extend items) fun place mem => ?_
  rw [whole.wellFormed.extend_places, List.mem_append] at mem
  refine mem.imp_right fun new => ?_
  obtain ⟨item, -, rfl⟩ := List.mem_map.mp new
  rfl

theorem extend_toList
    (whole : r.Whole)
    (items : List α) :
    (r.extend items).toList = r.toList ++ items := by
  apply (whole.extend items).wellFormed.toList_of_places
  rw [whole.wellFormed.extend_places, whole.places_eq, List.map_append]

theorem picked_extend
    (whole : r.Whole)
    {items : List α}
    (known : items ⊆ r.toList) :
    r.Picked (r.extend items) := by
  refine ⟨whole.extend items, ?_⟩
  rw [whole.extend_toList]
  exact List.append_subset.mpr ⟨List.Subset.refl _, known⟩

theorem push
    (whole : r.Whole)
    (item : α) :
    (r.push item).2.Whole :=
  whole.extend [item]

theorem append
    (whole : r.Whole)
    (other : Reel α) :
    (r.append other).Whole :=
  whole.extend _

theorem ofList
    (items : List α) :
    (Reel.ofList items).Whole :=
  empty.extend items

theorem replaceAll
    (r : Reel α)
    (items : List α) :
    (r.replaceAll items).Whole :=
  empty.extend items

theorem insert
    (whole : r.Whole)
    {position : Nat}
    {item : α}
    {h : Handle}
    {r' : Reel α}
    (inserted : r.insert position item = some (h, r')) :
    r'.Whole := by
  refine whole.of_subset (whole.wellFormed.insert inserted) fun place mem => ?_
  rw [whole.wellFormed.insert_places inserted] at mem
  rcases List.eq_or_mem_of_mem_insertIdx mem with rfl | before
  · exact .inr rfl
  · exact .inl before

theorem insert_subset
    (whole : r.Whole)
    {position : Nat}
    {item : α}
    {h : Handle}
    {r' : Reel α}
    (inserted : r.insert position item = some (h, r')) :
    r'.toList ⊆ item :: r.toList := by
  intro found mem
  rw [(whole.insert inserted).mem_toList_iff, whole.wellFormed.insert_places inserted] at mem
  rcases List.eq_or_mem_of_mem_insertIdx mem with new | before
  · exact Option.some.inj new ▸ List.mem_cons_self
  · exact List.mem_cons_of_mem _ (whole.mem_toList_iff.mpr before)

theorem picked_remove
    (whole : r.Whole)
    (position : Nat) :
    r.Picked (r.remove position).2 := by
  refine whole.picked (whole.wellFormed.remove position) fun place mem => ?_
  rw [whole.wellFormed.remove_places] at mem
  exact List.mem_of_mem_eraseIdx mem

theorem remove
    (whole : r.Whole)
    (position : Nat) :
    (r.remove position).2.Whole :=
  (whole.picked_remove position).whole

theorem picked_removeLast
    (whole : r.Whole) :
    r.Picked r.removeLast.2 := by
  rw [removeLast_eq]
  exact whole.picked_remove _

theorem removeLast
    (whole : r.Whole) :
    r.removeLast.2.Whole :=
  whole.picked_removeLast.whole

theorem picked_swap
    (whole : r.Whole)
    {i j : Nat}
    {r' : Reel α}
    (swapped : r.swap i j = some r') :
    r.Picked r' := by
  refine whole.picked (whole.wellFormed.swap swapped) fun place mem => ?_
  obtain ⟨iInside, jInside, places⟩ := swap_places swapped
  rw [places] at mem
  exact (List.set_set_perm iInside jInside).mem_iff.mp mem

theorem picked_reverse
    (whole : r.Whole) :
    r.Picked r.reverse := by
  refine whole.picked whole.wellFormed.reverse fun place mem => ?_
  rw [reverse_places] at mem
  exact List.mem_reverse.mp mem

theorem updateAll
    (whole : r.Whole)
    (f : Nat → α → α) :
    (r.updateAll f).Whole := by
  refine ⟨whole.wellFormed.sameFrame (.updateAll r f), ?_⟩
  rw [whole.wellFormed.updateAll_places]
  exact none_not_mem_updatePlaces f 0 whole.noGap

/-- An open place is closed by putting an item back. -/
theorem restore_take
    (whole : r.Whole)
    (h : Handle)
    (item : α) :
    ((r.take h).2.restore h item).Whole := by
  have taken := whole.wellFormed.take h
  refine whole.of_subset (taken.sameFrame (.put _ h (some item))) fun place mem => ?_
  cases located : r.position? h with
  | none =>
      have absent := position?_eq_none_iff.mp located
      have still : h ∉ (r.take h).2.order := by rwa [take_order]
      rw [Reel.restore, taken.put_places_of_not_mem still,
        whole.wellFormed.take_places_of_not_mem absent] at mem
      exact .inl mem
  | some position =>
      rw [whole.wellFormed.restore_take_places (getElem?_of_position? located)] at mem
      refine (List.mem_or_eq_of_mem_set mem).imp_right ?_
      rintro rfl
      rfl

/-- An open place is closed by replacing it. -/
theorem splice_take
    (whole : r.Whole)
    (h : Handle)
    (items : List α) :
    ((r.take h).2.splice h items).2.Whole := by
  have taken := whole.wellFormed.take h
  refine whole.of_subset (taken.splice h items) fun place mem => ?_
  cases located : r.position? h with
  | none =>
      have absent := position?_eq_none_iff.mp located
      have nowhere : (r.take h).2.position? h = none := by
        rwa [position?_eq_none_iff, take_order]
      rw [splice_of_not_located nowhere,
        whole.wellFormed.take_places_of_not_mem absent] at mem
      exact .inl mem
  | some position =>
      rw [whole.wellFormed.splice_take_places (getElem?_of_position? located),
        List.mem_append, List.mem_append] at mem
      rcases mem with (before | new) | behind
      · exact .inl (List.mem_of_mem_take before)
      · obtain ⟨item, -, rfl⟩ := List.mem_map.mp new
        exact .inr rfl
      · exact .inl (List.mem_of_mem_drop behind)

end Whole

/-! ## One place among the others -/

/-- The order and the items are cut in the same way around one place. -/
structure CutAt (r : Reel α) (front : List Handle) (h : Handle) (rest : List Handle)
    (done : List α) (item : α) (todo : List α) : Prop where
  /-- The handles in front of the place and behind it. -/
  order : r.order = front ++ h :: rest
  /-- The items in front of the place and behind it. -/
  items : r.toList = done ++ item :: todo
  /-- As many handles as items are in front. -/
  aligned : front.length = done.length

namespace CutAt

variable {front rest : List Handle} {h : Handle} {done todo : List α} {item : α}

theorem found
    (cut : r.CutAt front h rest done item todo) :
    r.order[done.length]? = some h := by
  rw [cut.order, ← cut.aligned, List.getElem?_append_right (Nat.le_refl _), Nat.sub_self,
    List.getElem?_cons_zero]

theorem places
    (cut : r.CutAt front h rest done item todo)
    (whole : r.Whole) :
    r.places = done.map some ++ some item :: todo.map some := by
  rw [whole.places_eq, cut.items, List.map_append, List.map_cons]

/-- A whole reel can be cut around any place. -/
theorem of_order
    (whole : r.Whole)
    (order : r.order = front ++ h :: rest) :
    ∃ done item todo, r.CutAt front h rest done item todo := by
  have length : r.toList.length = front.length + (rest.length + 1) := by
    rw [whole.wellFormed.whole_iff.mp whole, Reel.length, order, List.length_append,
      List.length_cons]
  have inside : front.length < r.toList.length := by omega
  exact ⟨r.toList.take front.length, r.toList[front.length], r.toList.drop (front.length + 1),
    order, by simp, (List.length_take_of_le (Nat.le_of_lt inside)).symm⟩

theorem get?_eq
    (cut : r.CutAt front h rest done item todo)
    (whole : r.Whole) :
    r.get? h = some item := by
  rw [WellFormed.get?_of_found cut.found, cut.places whole]
  simp

/-- The place is open while its item is taken out. -/
theorem take_places
    (cut : r.CutAt front h rest done item todo)
    (whole : r.Whole) :
    (r.take h).2.places = done.map some ++ none :: todo.map some := by
  rw [whole.wellFormed.take_places cut.found, cut.places whole]
  simp

/-- Another item is put into the open place. -/
theorem restore_take
    (cut : r.CutAt front h rest done item todo)
    (whole : r.Whole)
    (new : α) :
    ((r.take h).2.restore h new).order = front ++ h :: rest ∧
      ((r.take h).2.restore h new).toList = done ++ new :: todo := by
  constructor
  · rw [Reel.restore, put_order, take_order, cut.order]
  · apply (whole.restore_take h new).wellFormed.toList_of_places
    rw [whole.wellFormed.restore_take_places cut.found, cut.places whole]
    simp

/-- The open place gives way to other items. -/
theorem splice_take
    (cut : r.CutAt front h rest done item todo)
    (whole : r.Whole)
    (news : List α) :
    ∃ handles, handles.length = news.length ∧
      ((r.take h).2.splice h news).2.order = front ++ handles ++ rest ∧
      ((r.take h).2.splice h news).2.toList = done ++ news ++ todo := by
  have still : (r.take h).2.order[done.length]? = some h := by rw [take_order, cut.found]
  have located := (whole.wellFormed.take h).position?_eq_some_iff.mpr still
  refine ⟨((r.take h).2.splice h news).1, ?_, ?_, ?_⟩
  · rw [splice_of_located located, allocateAll_length]
  · rw [splice_of_located located, take_order, cut.order, ← cut.aligned]
    simp
  · apply (whole.splice_take h news).wellFormed.toList_of_places
    rw [whole.wellFormed.splice_take_places cut.found, whole.places_eq, cut.items,
      ← List.map_take, ← List.map_drop]
    simp

end CutAt
end Reel
end Darkroom
