import Darkroom.Proofs.Reel.Whole
import Mathlib.Data.Set.List
import Mathlib.Logic.Equiv.Basic

/-!
# Rearranging a whole reel

Reversing a whole reel, exchanging two of its places, moving its last item and adding copies act on
the list of its items as on any list.  Exchanging two positions is reading the list through the
permutation that exchanges them, so doing it twice changes nothing.
-/

namespace Darkroom
namespace Reel

variable {α β : Type}

/-! ## Two positions exchanged -/

/-- A list with the items at two positions exchanged; a position outside the list changes
nothing. -/
def exchanged (i j : Nat) (items : List α) : List α :=
  match items[i]?, items[j]? with
  | some a, some b => (items.set i b).set j a
  | _, _ => items

section Exchanged

variable {items : List α} {i j : Nat}

theorem exchanged_of_lt
    (iInside : i < items.length)
    (jInside : j < items.length) :
    exchanged i j items = (items.set i items[j]).set j items[i] := by
  simp [exchanged, iInside, jInside]

theorem exchanged_of_outside
    (outside : ¬ (i < items.length ∧ j < items.length)) :
    exchanged i j items = items := by
  unfold exchanged
  split
  · next a b first second =>
    exact absurd ⟨(List.getElem?_eq_some_iff.mp first).1, (List.getElem?_eq_some_iff.mp second).1⟩
      outside
  · rfl

theorem exchanged_self
    (i : Nat)
    (items : List α) :
    exchanged i i items = items := by
  by_cases inside : i < items.length
  · rw [exchanged_of_lt inside inside, List.set_getElem_self, List.set_getElem_self]
  · exact exchanged_of_outside fun both => inside both.1

theorem length_exchanged
    (i j : Nat)
    (items : List α) :
    (exchanged i j items).length = items.length := by
  unfold exchanged
  split <;> simp

theorem exchanged_map
    (f : α → β)
    (i j : Nat)
    (items : List α) :
    exchanged i j (items.map f) = (exchanged i j items).map f := by
  unfold exchanged
  rw [List.getElem?_map, List.getElem?_map]
  cases items[i]? <;> cases items[j]? <;> simp [List.map_set]

/-- Reading behind an exchange is reading at the other position. -/
theorem getElem?_exchanged
    (iInside : i < items.length)
    (jInside : j < items.length)
    (n : Nat) :
    (exchanged i j items)[n]? = items[Equiv.swap i j n]? := by
  rw [exchanged_of_lt iInside jInside, List.getElem?_set, List.getElem?_set, List.length_set,
    Equiv.swap_apply_def]
  grind

/-- Exchanging two positions twice changes nothing. -/
theorem exchanged_exchanged
    (i j : Nat)
    (items : List α) :
    exchanged i j (exchanged i j items) = items := by
  by_cases inside : i < items.length ∧ j < items.length
  · have still := length_exchanged i j items
    apply List.ext_getElem?
    intro n
    rw [getElem?_exchanged (still.symm ▸ inside.1) (still.symm ▸ inside.2),
      getElem?_exchanged inside.1 inside.2, Equiv.swap_apply_self]
  · rw [exchanged_of_outside inside, exchanged_of_outside inside]

theorem exchanged_perm
    (i j : Nat)
    (items : List α) :
    (exchanged i j items).Perm items := by
  unfold exchanged
  split
  · next a b first second =>
    obtain ⟨iInside, rfl⟩ := List.getElem?_eq_some_iff.mp first
    obtain ⟨jInside, rfl⟩ := List.getElem?_eq_some_iff.mp second
    exact List.set_set_perm iInside jInside
  · exact .refl _

end Exchanged

variable {r : Reel α}

theorem isEmpty_eq_false_iff :
    r.isEmpty = false ↔ 0 < r.length := by
  rw [isEmpty, length, List.isEmpty_eq_false_iff, List.length_pos_iff]

/-- The reel with two places exchanged. -/
def exchange (r : Reel α) (i j : Nat) : Reel α :=
  { r with order := exchanged i j r.order }

theorem swap_of_lt
    {i j : Nat}
    (iInside : i < r.length)
    (jInside : j < r.length) :
    r.swap i j = some (r.exchange i j) := by
  rw [exchange, exchanged_of_lt iInside jInside]
  exact swap_eq_some_iff.mpr ⟨iInside, jInside, rfl⟩

theorem exchange_self
    (r : Reel α)
    (i : Nat) :
    r.exchange i i = r := by
  rw [exchange, exchanged_self]

namespace Whole

theorem exchange
    (whole : r.Whole)
    (i j : Nat) :
    (r.exchange i j).Whole := by
  by_cases inside : i < r.length ∧ j < r.length
  · exact (whole.picked_swap (swap_of_lt inside.1 inside.2)).whole
  · rwa [Reel.exchange, exchanged_of_outside inside]

theorem exchange_toList
    (whole : r.Whole)
    (i j : Nat) :
    (r.exchange i j).toList = exchanged i j r.toList := by
  refine (whole.exchange i j).wellFormed.toList_of_places ?_
  calc (r.exchange i j).places
      = (exchanged i j r.order).map r.get? := rfl
    _ = exchanged i j r.places := (exchanged_map r.get? i j r.order).symm
    _ = (exchanged i j r.toList).map some := by rw [whole.places_eq, exchanged_map]

theorem reverse
    (whole : r.Whole) :
    r.reverse.Whole :=
  whole.picked_reverse.whole

theorem reverse_toList
    (whole : r.Whole) :
    r.reverse.toList = r.toList.reverse := by
  refine whole.reverse.wellFormed.toList_of_places ?_
  rw [reverse_places, whole.places_eq, List.map_reverse]

/-! ## The last item moved -/

theorem length_toList
    (whole : r.Whole) :
    r.toList.length = r.length :=
  whole.wellFormed.whole_iff.mp whole

theorem of_removeLast
    (whole : r.Whole)
    {item? : Option α}
    {others : Reel α}
    (removed : r.removeLast = (item?, others)) :
    others.Whole := by
  have left := whole.removeLast
  rwa [removed] at left

/-- The last item behind the others makes up the old list. -/
theorem removeLast_toList
    (whole : r.Whole)
    {item : α}
    {others : Reel α}
    (removed : r.removeLast = (some item, others)) :
    others.toList ++ [item] = r.toList := by
  have othersWhole := whole.of_removeLast removed
  rw [removeLast_eq, ← length, ← whole.length_toList] at removed
  have front : others.toList = r.toList.dropLast := by
    apply othersWhole.wellFormed.toList_of_places
    have places := whole.wellFormed.remove_places (r.toList.length - 1)
    rwa [removed, whole.places_eq, List.eraseIdx_map, List.eraseIdx_length_sub_one] at places
  have last : r.toList.getLast? = some item := by
    have found := congrArg Prod.fst removed
    rw [remove_fst, whole.places_eq, List.getElem?_map, ← List.getLast?_eq_getElem?] at found
    cases given : r.toList.getLast? <;> simp_all
  rw [front, List.dropLast_append_getLast? item last]

theorem exists_removeLast
    (whole : r.Whole)
    (nonempty : r.isEmpty = false) :
    ∃ item others, r.removeLast = (some item, others) := by
  have some : ∃ item, r.removeLast.1 = some item := by
    rw [whole.isEmpty_toList, List.isEmpty_eq_false_iff] at nonempty
    refine ⟨r.toList.getLast nonempty, ?_⟩
    rw [removeLast_eq, ← length, ← whole.length_toList, remove_fst, whole.places_eq,
      List.getElem?_map, ← List.getLast?_eq_getElem?, List.getLast?_eq_some_getLast nonempty]
    rfl
  obtain ⟨item, first⟩ := some
  exact ⟨item, r.removeLast.2, Prod.ext first rfl⟩

theorem insert_toList
    (whole : r.Whole)
    {position : Nat}
    {item : α}
    {h : Handle}
    {r' : Reel α}
    (inserted : r.insert position item = some (h, r')) :
    r'.toList = r.toList.insertIdx position item := by
  refine (whole.insert inserted).wellFormed.toList_of_places ?_
  rw [whole.wellFormed.insert_places inserted, whole.places_eq, List.map_insertIdx]

/-! ## Copies added -/

/-- Copies are the items at the positions, in the order of the positions. -/
theorem copies?_eq_some_iff
    (whole : r.Whole)
    {positions : List Nat}
    {copies : List α} :
    r.copies? positions = some copies ↔
      copies.map some = positions.map (r.toList[·]?) := by
  induction positions generalizing copies with
  | nil => cases copies <;> simp [Reel.copies?]
  | cons position rest inductionHypothesis =>
      have found : r.at? position = r.toList[position]? := by
        rw [at?_eq, whole.places_eq, List.getElem?_map]
        cases r.toList[position]? <;> rfl
      rw [Reel.copies?, List.mapM_cons, found]
      constructor
      · intro copied
        obtain ⟨item, first, copied⟩ := Option.bind_eq_some_iff.mp copied
        obtain ⟨items, others, copied⟩ := Option.bind_eq_some_iff.mp copied
        obtain rfl := Option.some.inj copied
        rw [List.map_cons, List.map_cons, first, inductionHypothesis.mp others]
      · intro same
        cases copies with
        | nil => cases same
        | cons item items =>
            obtain ⟨first, others⟩ := List.cons.inj same
            have copied : rest.mapM r.at? = some items := inductionHypothesis.mpr others
            rw [show r.toList[position]? = some item from first.symm, copied]
            rfl

/-- Positions of the list have copies. -/
theorem exists_copies
    (whole : r.Whole)
    {positions : List Nat}
    (inside : ∀ position ∈ positions, position < r.length) :
    ∃ copies, r.copies? positions = some copies := by
  have held : positions.map (r.toList[·]?) ∈ Set.range (List.map some) := by
    rw [Set.range_list_map]
    intro item? mem
    obtain ⟨position, isPosition, rfl⟩ := List.mem_map.mp mem
    exact ⟨_, (List.getElem?_eq_getElem
      (whole.length_toList.symm ▸ inside position isPosition)).symm⟩
  obtain ⟨copies, same⟩ := held
  exact ⟨copies, whole.copies?_eq_some_iff.mpr same⟩

theorem foldl_extend_toList
    (whole : r.Whole)
    (copies : List α)
    (times : Nat) :
    ((List.replicate times copies).foldl Reel.extend r).Whole ∧
    ((List.replicate times copies).foldl Reel.extend r).toList =
      r.toList ++ (List.replicate times copies).flatten := by
  induction times generalizing r with
  | zero => simp [whole]
  | succ times inductionHypothesis =>
      obtain ⟨still, items⟩ := inductionHypothesis (whole.extend copies)
      rw [List.replicate_succ, List.foldl_cons, List.flatten_cons]
      refine ⟨still, ?_⟩
      rw [items, whole.extend_toList, List.append_assoc]

end Whole
end Reel
end Darkroom
