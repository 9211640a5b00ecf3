import Darkroom.Proofs.Reel.Whole
import Mathlib.Data.List.Sort

/-!
# Removing several places

Positions in any order and with repeats name the places to remove.  They are sorted, repeats are
dropped, and the places are removed from the last position to the first, so that no removal shifts
a position that is still to come.  The other places stay, in their order and under their handles.
-/

namespace Darkroom
namespace Reel

variable {α β : Type}

/-- The items whose positions are not among the given ones. -/
def without (positions : List Nat) (items : List β) : List β :=
  (items.zipIdx.filter fun entry => entry.2 ∉ positions).map Prod.fst

theorem without_map
    (positions : List Nat)
    (f : α → β)
    (items : List α) :
    without positions (items.map f) = (without positions items).map f := by
  rw [without, without, List.zipIdx_map, List.filter_map, List.map_map, List.map_map]
  rfl

theorem without_subset
    {positions : List Nat}
    {items : List β} :
    without positions items ⊆ items := by
  intro item mem
  obtain ⟨entry, left, rfl⟩ := List.mem_map.mp mem
  exact List.fst_mem_of_mem_zipIdx (List.mem_filter.mp left).1

/-! ## Sorted positions -/

/-- Of equal neighbors one is kept, and the others are kept as they are. -/
theorem eraseRepsBy_loop
    {kept rest : List Nat}
    {n : Nat}
    (increasing : (kept.reverse ++ [n]).Pairwise (· < ·))
    (sorted : (n :: rest).Pairwise (· ≤ ·)) :
    (List.eraseRepsBy.loop (· == ·) n rest kept).Pairwise (· < ·) ∧
      ∀ m, m ∈ List.eraseRepsBy.loop (· == ·) n rest kept ↔ m ∈ kept ∨ m = n ∨ m ∈ rest := by
  induction rest generalizing n kept with
  | nil => 
      rw [List.eraseRepsBy.loop, List.reverse_cons]
      exact ⟨increasing, fun m => by simp⟩
  | cons next rest inductionHypothesis =>
      obtain ⟨least, sorted⟩ := List.pairwise_cons.mp sorted
      rw [List.eraseRepsBy.loop]
      split
      · next same =>
        obtain rfl : n = next := eq_of_beq same
        simpa using inductionHypothesis increasing sorted
      · next other =>
        have next_gt : n < next :=
          Nat.lt_of_le_of_ne (least next List.mem_cons_self) (by simpa using other)
        have stillIncreasing : ((n :: kept).reverse ++ [next]).Pairwise (· < ·) := by
          rw [List.reverse_cons, List.pairwise_append]
          refine ⟨increasing, List.pairwise_singleton _ _, fun a before b last => ?_⟩
          rw [List.mem_singleton.mp last]
          rcases List.mem_append.mp before with earlier | self
          · exact ((List.pairwise_append.mp increasing).2.2 a earlier n (by simp)).trans next_gt
          · rwa [List.mem_singleton.mp self]
        obtain ⟨increasing, mem⟩ := inductionHypothesis stillIncreasing sorted
        exact ⟨increasing, fun m => by rw [mem]; simp; tauto⟩

theorem eraseReps_of_sorted
    {positions : List Nat}
    (sorted : positions.Pairwise (· ≤ ·)) :
    positions.eraseReps.Pairwise (· < ·) ∧ ∀ m, m ∈ positions.eraseReps ↔ m ∈ positions := by
  cases positions with
  | nil => exact ⟨.nil, fun m => .rfl⟩
  | cons n rest =>
      obtain ⟨increasing, mem⟩ := eraseRepsBy_loop (by simp : ([].reverse ++ [n]).Pairwise _) sorted
      exact ⟨increasing, fun m => by rw [List.eraseReps, List.eraseRepsBy, mem]; simp⟩

/-- Sorted and without repeats, positions in a list are the chosen ones among all. -/
theorem eraseReps_mergeSort
    {positions : List Nat}
    {length : Nat}
    (inside : ∀ position ∈ positions, position < length) :
    (positions.mergeSort (· ≤ ·)).eraseReps = (List.range length).filter (· ∈ positions) := by
  have sorted : (positions.mergeSort (· ≤ ·)).Pairwise (· ≤ ·) := by
    simpa using @List.pairwise_mergeSort _ (fun a b => decide (a ≤ b))
      (fun a b c => by simpa using Nat.le_trans) (fun a b => by simpa using Nat.le_total a b)
      positions
  obtain ⟨increasing, mem⟩ := eraseReps_of_sorted sorted
  refine increasing.eq_of_mem_iff (List.pairwise_lt_range.filter _) fun n => ?_
  rw [mem, List.mem_mergeSort, List.mem_filter, List.mem_range, decide_eq_true_eq]
  exact ⟨fun chosen => ⟨inside n chosen, chosen⟩, And.right⟩

/-- Erasing at chosen positions, the last one first, leaves the items at the others. -/
theorem foldr_eraseIdx_filter_range
    (chosen : Nat → Bool)
    (items : List β) :
    ((List.range items.length).filter chosen).foldr (fun position rest => rest.eraseIdx position)
        items =
      (items.zipIdx.filter fun entry => !chosen entry.2).map Prod.fst := by
  induction items generalizing chosen with
  | nil => rfl
  | cons item items inductionHypothesis =>
      have behind (positions : List Nat) :
          (positions.map Nat.succ).foldr (fun position rest => rest.eraseIdx position)
              (item :: items) =
            item :: positions.foldr (fun position rest => rest.eraseIdx position) items := by
        induction positions with
        | nil => rfl
        | cons position positions inductionHypothesis =>
            rw [List.map_cons, List.foldr_cons, inductionHypothesis, List.foldr_cons,
              List.eraseIdx_cons_succ]
      have others : ((items.zipIdx.map (Prod.map id (· + 1))).filter
          fun entry => !chosen entry.2).map Prod.fst =
          (items.zipIdx.filter fun entry => !chosen (entry.2 + 1)).map Prod.fst := by
        rw [List.filter_map, List.map_map]
        rfl
      rw [List.length_cons, List.range_succ_eq_map, List.filter_cons, List.filter_map,
        List.zipIdx_cons', List.filter_cons]
      cases first : chosen 0 <;>
        simp only [Bool.not_true, Bool.not_false, Bool.false_eq_true, if_true, if_false,
          List.foldr_cons, List.map_cons, behind, others, List.eraseIdx_zero, List.tail_cons,
          ← inductionHypothesis fun n => chosen (n + 1)] <;>
        rfl

/-! ## Removing -/

variable {r : Reel α}

theorem remove_order
    (r : Reel α)
    (position : Nat) :
    (r.remove position).2.order = r.order.eraseIdx position := by
  cases found : r.order[position]? with
  | none =>
      rw [remove_of_not_found found, List.eraseIdx_of_length_le]
      exact List.getElem?_eq_none_iff.mp found
  | some h => rw [remove_of_found found]

/-- The handles that stay read the items that they read before. -/
theorem WellFormed.remove_get?_of_mem
    (wellFormed : r.WellFormed)
    {position : Nat}
    {h : Handle}
    (mem : h ∈ (r.remove position).2.order) :
    (r.remove position).2.get? h = r.get? h := by
  rw [remove_order] at mem
  cases found : r.order[position]? with
  | none => rw [remove_of_not_found found]
  | some g =>
      rw [remove_of_found found]
      exact (wellFormed.accountsFor_cons found).release_get?_of_mem mem

/-- One reel is another without the places at some positions. -/
structure Removed (positions : List Nat) (r r' : Reel α) : Prop where
  /-- The new reel is well-formed. -/
  wellFormed : r'.WellFormed
  /-- The handles at other positions are left, in their order. -/
  order : r'.order = without positions r.order
  /-- They read the items that they read before. -/
  get? : ∀ h ∈ r'.order, r'.get? h = r.get? h

/-- Places are removed one after the other, the last one first. -/
theorem WellFormed.foldr_remove
    (wellFormed : r.WellFormed)
    (positions : List Nat) :
    let after := positions.foldr (fun position r => (r.remove position).2) r
    after.WellFormed ∧
      after.order = positions.foldr (fun position rest => rest.eraseIdx position) r.order ∧
      ∀ h ∈ after.order, after.get? h = r.get? h := by
  induction positions with
  | nil => exact ⟨wellFormed, rfl, fun _ _ => rfl⟩
  | cons position positions inductionHypothesis =>
      obtain ⟨keptWellFormed, order, get?⟩ := inductionHypothesis
      refine ⟨keptWellFormed.remove position, ?_, fun h mem => ?_⟩
      · rw [List.foldr_cons, remove_order, order, List.foldr_cons]
      · rw [List.foldr_cons, keptWellFormed.remove_get?_of_mem mem]
        rw [List.foldr_cons, remove_order] at mem
        exact get? h (List.mem_of_mem_eraseIdx mem)

/-- Sorting and dropping repeats makes positions of the list fit for removal. -/
theorem WellFormed.removed
    (wellFormed : r.WellFormed)
    {positions : List Nat}
    (inside : ∀ position ∈ positions, position < r.length) :
    Removed positions r ((positions.mergeSort (· ≤ ·)).eraseReps.foldr
      (fun position r => (r.remove position).2) r) := by
  obtain ⟨removedWellFormed, order, get?⟩ := wellFormed.foldr_remove
    (positions.mergeSort (· ≤ ·)).eraseReps
  refine ⟨removedWellFormed, ?_, get?⟩
  rw [order, eraseReps_mergeSort inside, Reel.length, foldr_eraseIdx_filter_range, without]
  simp only [decide_not]

/-- Of a whole reel the items at other positions are left, in their order. -/
theorem Removed.toList
    {positions : List Nat}
    {r' : Reel α}
    (removed : Removed positions r r')
    (whole : r.Whole) :
    r'.toList = without positions r.toList := by
  apply removed.wellFormed.toList_of_places
  calc r'.places
      = r'.order.map r.get? := List.map_congr_left removed.get?
    _ = without positions r.places := by rw [removed.order, places, without_map]
    _ = (without positions r.toList).map some := by rw [whole.places_eq, without_map]

end Reel
end Darkroom
