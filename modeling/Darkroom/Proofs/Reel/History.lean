import Darkroom.Proofs.Reel.Refinement

/-!
# Histories of reels

A run of edits is followed by a history that gives every place a number of its own when it is made
and never gives the number again.  The history moves the numbers as the edits move the places, and
it notes which handle was given out for which number and which slots were released.  It finds the
place of a handle by what it noted and never asks the reel for it.

The reel and the history stay in step: the order of the reel holds, for every place of the row, the
one handle given out for it, and the generation of a slot is the number of its releases.
-/

namespace Darkroom
namespace Reel

variable {α : Type} {r : Reel α} {released : List Nat}

/-! ## Generations count releases -/

/-- The generation of every slot is the number of its releases, as far as 32 bits hold it. -/
structure Counts (r : Reel α) (released : List Nat) : Prop where
  /-- The generation of a slot. -/
  generation : ∀ slot s, r.slots[slot]? = some s →
    s.generation = UInt32.ofNat (released.count slot)
  /-- Only slots of the reel were released. -/
  inside : ∀ slot ∈ released, slot < r.slots.length

namespace Counts

theorem of_generations
    (counts : r.Counts released)
    {r' : Reel α}
    (generations : r'.slots.map Slot.generation = r.slots.map Slot.generation) :
    r'.Counts released where
  generation slot s found := by
    have image : (r.slots.map Slot.generation)[slot]? = some s.generation := by
      rw [← generations, List.getElem?_map, found, Option.map_some]
    rw [List.getElem?_map, Option.map_eq_some_iff] at image
    obtain ⟨t, there, same⟩ := image
    rw [← same, counts.generation slot t there]
  inside slot mem := by
    have length : r'.slots.length = r.slots.length := by
      simpa using congrArg List.length generations
    rw [length]
    exact counts.inside slot mem

theorem withOrder
    (counts : r.Counts released)
    (order : List Handle) :
    Counts { r with order } released :=
  counts.of_generations rfl

theorem allocate
    (counts : r.Counts released)
    (item : α) :
    (r.allocate item).2.Counts released := by
  constructor
  · intro slot s found
    unfold Reel.allocate at found
    split at found
    · next first free isFree =>
      rw [List.getElem?_set] at found
      split at found
      · next same =>
        subst same
        split at found
        · next within =>
          obtain rfl := Option.some.inj found
          simp only [List.getElem?_eq_getElem within, Option.map_some, Option.getD_some]
          exact counts.generation first _ (List.getElem?_eq_getElem within)
        · cases found
      · exact counts.generation slot s found
    · rw [List.getElem?_append] at found
      split at found
      · exact counts.generation slot s found
      · next beyond =>
        have fresh : released.count slot = 0 :=
          List.count_eq_zero.mpr fun mem => beyond (counts.inside slot mem)
        rw [List.getElem?_singleton] at found
        split at found
        · obtain rfl := Option.some.inj found
          rw [fresh]
          rfl
        · cases found
  · intro slot mem
    have within := counts.inside slot mem
    unfold Reel.allocate
    split
    · simpa using within
    · simp only [List.length_append, List.length_singleton]
      omega

theorem allocateAll
    (counts : r.Counts released)
    (items : List α) :
    (r.allocateAll items).2.Counts released := by
  induction items generalizing r with
  | nil => exact counts
  | cons item items inductionHypothesis => exact inductionHypothesis (counts.allocate item)

theorem release
    (counts : r.Counts released)
    {h : Handle}
    {s : Slot α}
    (live : r.live? h = some s) :
    (r.release h).Counts (released ++ [h.slot]) := by
  have found := (live?_eq_some_iff.mp live).1
  constructor
  · intro slot t there
    rw [List.count_append]
    by_cases same : slot = h.slot
    · subst same
      rw [release_slots_self live] at there
      obtain rfl := Option.some.inj there
      simp [counts.generation _ s found, UInt32.ofNat_add]
    · rw [release_slots_of_ne r same] at there
      rw [List.count_singleton, beq_eq_false_iff_ne.mpr (Ne.symm same)]
      exact counts.generation slot t there
  · intro slot mem
    have length : (r.release h).slots.length = r.slots.length := by simp [Reel.release, live]
    rw [length]
    rcases List.mem_append.mp mem with earlier | last
    · exact counts.inside slot earlier
    · rw [List.mem_singleton.mp last]
      exact (List.getElem?_eq_some_iff.mp found).1

end Counts

/-! ## Histories -/

/-- A place that is followed through a run. -/
structure Node (α : Type) where
  /-- The number that no other place ever has. -/
  number : Nat
  /-- The item, unless it is taken out. -/
  item : Option α

/-- Places that are new, numbered from `first` on. -/
def newborn (first : Nat) : List α → List (Node α)
  | [] => []
  | item :: items => ⟨first, some item⟩ :: newborn (first + 1) items

/-- A reel and what happened to its places so far. -/
structure History (α : Type) where
  /-- The reel. -/
  reel : Reel α := empty
  /-- The places in list order. -/
  row : List (Node α) := []
  /-- How many places were made. -/
  born : Nat := 0
  /-- The handles that were given out, with the numbers of their places. -/
  issued : List (Handle × Nat) := []
  /-- The slots that were released, in order. -/
  released : List Nat := []

namespace History

/-- The numbers of the places in list order. -/
def numbers (w : History α) : List Nat :=
  w.row.map Node.number

/-- The items of the places in list order. -/
def items (w : History α) : List (Option α) :=
  w.row.map Node.item

/-- From a position on, some places leave the row, and new ones take their position. -/
def replace (w : History α) (reel : Reel α) (handles : List Handle) (position count : Nat)
    (items : List α) : History α where
  reel := reel
  row := w.row.take position ++ newborn w.born items ++ w.row.drop (position + count)
  born := w.born + items.length
  issued := w.issued ++ handles.zip ((newborn w.born items).map Node.number)
  released := w.released ++ ((w.reel.order.drop position).take count).map Handle.slot

/-- The places hold other items. -/
def refill (w : History α) (reel : Reel α) (items : List (Option α)) : History α :=
  { w with reel, row := w.row.zipWith (fun node item => { node with item }) items }

/-- The position of the place that a handle was given out for, as long as the place is there. -/
def place? (w : History α) (h : Handle) : Option Nat :=
  w.row.findIdx? fun node => (h, node.number) ∈ w.issued

/-- The items with the one at the place of a handle changed, as long as the place is there. -/
def itemsWith (w : History α) (h : Handle) (f : Option α → Option α) : List (Option α) :=
  match w.place? h with
  | some position => w.items.modify position f
  | none => w.items

/-- A place is made at the end. -/
def push (w : History α) (item : α) : History α :=
  let (h, reel) := w.reel.push item
  w.replace reel [h] w.row.length 0 [item]

/-- The place at a position leaves the row, if there is one. -/
def remove (w : History α) (position : Nat) : History α :=
  w.replace (w.reel.remove position).2 [] position 1 []

/-- Two places of the row exchanged, if both are there. -/
def swapRow (w : History α) (i j : Nat) : List (Node α) :=
  match w.row[i]?, w.row[j]? with
  | some a, some b => (w.row.set i b).set j a
  | _, _ => w.row

/-- The history after one more edit. -/
def next (w : History α) : Edit α → History α
  | .push item => w.push item
  | .extend items => items.foldl push w
  | .append other => other.intoList.foldl push w
  | .insert position item =>
      match w.reel.insert position item with
      | some (h, reel) => w.replace reel [h] position 0 [item]
      | none => w
  | .modify h f => w.refill (w.reel.modify h f) (w.itemsWith h (Option.map f))
  | .modifyAt position f =>
      w.refill (w.reel.modifyAt position f) (w.items.modify position (Option.map f))
  | .updateAll f => w.refill (w.reel.updateAll f) (updatePlaces f 0 w.items)
  | .take h => w.refill (w.reel.take h).2 (w.itemsWith h fun _ => none)
  | .restore h item => w.refill (w.reel.restore h item) (w.itemsWith h fun _ => some item)
  | .splice h items =>
      let (handles, reel) := w.reel.splice h items
      match w.place? h with
      | some position => w.replace reel handles position 1 items
      | none => { w with reel }
  | .remove position => w.remove position
  | .removeFirst => w.remove 0
  | .removeLast => w.replace w.reel.removeLast.2 [] (w.row.length - 1) 1 []
  | .swap i j => { w with reel := (w.reel.swap i j).getD w.reel, row := w.swapRow i j }
  | .reverse => { w with reel := w.reel.reverse, row := w.row.reverse }

end History

/-- The history of a run of edits on the empty reel. -/
def history (run : List (Edit α)) : History α :=
  run.foldl History.next {}

theorem history_append
    (before later : List (Edit α)) :
    history (before ++ later) = later.foldl History.next (history before) :=
  List.foldl_append

/-! ## New numbers -/

@[simp] theorem newborn_items
    (first : Nat)
    (items : List α) :
    (newborn first items).map Node.item = items.map some := by
  induction items generalizing first with
  | nil => rfl
  | cons item items inductionHypothesis =>
      rw [newborn, List.map_cons, List.map_cons, inductionHypothesis]

@[simp] theorem newborn_numbers
    (first : Nat)
    (items : List α) :
    (newborn first items).map Node.number = List.range' first items.length := by
  induction items generalizing first with
  | nil => rfl
  | cons item items inductionHypothesis =>
      rw [newborn, List.map_cons, inductionHypothesis, List.length_cons, List.range'_succ]

/-- Filling a row keeps its numbers and leaves it with the new items. -/
theorem fill_row
    {row : List (Node α)}
    {items : List (Option α)}
    (length : row.length = items.length) :
    (row.zipWith (fun node item => { node with item }) items).map Node.number =
        row.map Node.number ∧
      (row.zipWith (fun node item => { node with item }) items).map Node.item = items := by
  induction row generalizing items with
  | nil =>
      obtain rfl := List.length_eq_zero_iff.mp length.symm
      exact ⟨rfl, rfl⟩
  | cons node row inductionHypothesis =>
      cases items with
      | nil => cases length
      | cons item items =>
          obtain ⟨numbers, filled⟩ := inductionHypothesis (Nat.succ.inj length)
          rw [List.zipWith_cons_cons, List.map_cons, List.map_cons, List.map_cons, numbers,
            filled]
          exact ⟨rfl, rfl⟩

/-- A number without repetition has one handle. -/
theorem eq_of_mem_zip
    {handles : List Handle}
    {numbers : List Nat}
    (nodup : numbers.Nodup)
    {g h : Handle}
    {n : Nat}
    (gMem : (g, n) ∈ handles.zip numbers)
    (hMem : (h, n) ∈ handles.zip numbers) :
    g = h := by
  obtain ⟨i, iInside, iEntry⟩ := List.getElem_of_mem gMem
  obtain ⟨j, jInside, jEntry⟩ := List.getElem_of_mem hMem
  simp only [List.getElem_zip, Prod.mk.injEq] at iEntry jEntry
  have same : i = j := nodup.getElem_inj_iff.mp (iEntry.2.trans jEntry.2.symm)
  subst same
  exact iEntry.1.symm.trans jEntry.1

theorem insertIdx_eq_take_append_drop
    {β : Type}
    {entries : List β}
    {position : Nat}
    (inside : position ≤ entries.length)
    {entry : β} :
    entries.insertIdx position entry =
      entries.take position ++ [entry] ++ entries.drop position := by
  induction position generalizing entries with
  | zero => rfl
  | succ position inductionHypothesis =>
      cases entries with
      | nil => cases inside
      | cons first rest =>
          rw [List.insertIdx_succ_cons, inductionHypothesis (Nat.le_of_succ_le_succ inside)]
          rfl

/-- An entry whose number is neither before nor behind a stretch lies in it. -/
theorem mem_middle_of_mem_zip
    {handles : List Handle}
    {numbers : List Nat}
    {position count : Nat}
    {h : Handle}
    {n : Nat}
    (mem : (h, n) ∈ handles.zip numbers)
    (notBefore : n ∉ numbers.take position)
    (notBehind : n ∉ numbers.drop (position + count)) :
    h ∈ (handles.drop position).take count := by
  obtain ⟨i, inside, entry⟩ := List.getElem_of_mem mem
  rw [List.length_zip] at inside
  simp only [List.getElem_zip, Prod.mk.injEq] at entry
  have behindStart : position ≤ i := by
    by_contra early
    exact notBefore (List.mem_take_iff_getElem.mpr ⟨i, by omega, entry.2⟩)
  have beforeEnd : i < position + count := by
    by_contra late
    refine notBehind (List.mem_drop_iff_getElem.mpr ⟨i - (position + count), by omega, ?_⟩)
    simpa [Nat.add_sub_cancel' (Nat.not_lt.mp late)] using entry.2
  refine List.mem_take_iff_getElem.mpr ⟨i - position, by simp; omega, ?_⟩
  simpa [Nat.add_sub_cancel' behindStart] using entry.1

/-! ## The invariant of a history -/

namespace History

variable {w : History α}

/-- The handles in list order, each with the number of its place. -/
def tags (w : History α) : List (Handle × Nat) :=
  w.reel.order.zip w.numbers

theorem replace_numbers
    (w : History α)
    (reel : Reel α)
    (handles : List Handle)
    (position count : Nat)
    (items : List α) :
    (w.replace reel handles position count items).numbers =
      w.numbers.take position ++ List.range' w.born items.length ++
        w.numbers.drop (position + count) := by
  simp [replace, numbers]

theorem replace_items
    (w : History α)
    (reel : Reel α)
    (handles : List Handle)
    (position count : Nat)
    (items : List α) :
    (w.replace reel handles position count items).items =
      w.items.take position ++ items.map some ++ w.items.drop (position + count) := by
  simp [replace, History.items]

theorem replace_issued
    (w : History α)
    (reel : Reel α)
    (handles : List Handle)
    (position count : Nat)
    (items : List α) :
    (w.replace reel handles position count items).issued =
      w.issued ++ handles.zip (List.range' w.born items.length) := by
  simp [replace]

/-- A number in the row after some places gave way to new ones is old, or it is new. -/
theorem mem_replace_numbers
    {reel : Reel α}
    {handles : List Handle}
    {position count : Nat}
    {items : List α}
    {n : Nat}
    (mem : n ∈ (w.replace reel handles position count items).numbers) :
    n ∈ w.numbers ∨ n ∈ List.range' w.born items.length := by
  rw [replace_numbers, List.mem_append, List.mem_append] at mem
  rcases mem with (before | new) | behind
  · exact .inl (List.mem_of_mem_take before)
  · exact .inr new
  · exact .inl (List.mem_of_mem_drop behind)

/-- What every run keeps. -/
structure Sound (w : History α) : Prop where
  /-- The reel is well-formed. -/
  wellFormed : w.reel.WellFormed
  /-- The row holds the items of the reel. -/
  items_eq : w.items = w.reel.places
  /-- No two places have one number. -/
  nodup : w.numbers.Nodup
  /-- Only numbers below the next one are in the row. -/
  numbers_lt : ∀ n ∈ w.numbers, n < w.born
  /-- Only numbers below the next one have handles. -/
  issued_lt : ∀ entry ∈ w.issued, entry.2 < w.born
  /-- The handle that the order holds for a place was given out for it. -/
  tagged : ∀ entry ∈ w.tags, entry ∈ w.issued
  /-- No other handle was given out for the place. -/
  unique : ∀ h n, (h, n) ∈ w.issued → ∀ g, (g, n) ∈ w.tags → g = h
  /-- Generations count releases. -/
  counts : w.reel.Counts w.released
  /-- The slot of a place that left the row was released after the handle was given out. -/
  gone : ∀ h n, (h, n) ∈ w.issued → n ∉ w.numbers →
    ∃ k < w.released.count h.slot, h.generation = UInt32.ofNat k

namespace Sound

theorem initial : ({} : History α).Sound where
  wellFormed := .empty
  items_eq := rfl
  nodup := List.nodup_nil
  numbers_lt n mem := absurd mem List.not_mem_nil
  issued_lt entry mem := absurd mem List.not_mem_nil
  tagged entry mem := absurd mem List.not_mem_nil
  unique h n mem := absurd mem List.not_mem_nil
  counts :=
    { generation := fun slot s found => by simp [empty] at found
      inside := fun slot mem => absurd mem List.not_mem_nil }
  gone h n mem := absurd mem List.not_mem_nil

theorem length_numbers
    (sound : w.Sound) :
    w.numbers.length = w.reel.order.length := by
  have := congrArg List.length sound.items_eq
  simpa [numbers, items, places] using this

/-- Every number in the row is tagged with a handle. -/
theorem exists_tag
    (sound : w.Sound)
    {n : Nat}
    (mem : n ∈ w.numbers) :
    ∃ g, (g, n) ∈ w.tags := by
  obtain ⟨i, inside, rfl⟩ := List.getElem_of_mem mem
  have within : i < w.reel.order.length := sound.length_numbers ▸ inside
  refine ⟨w.reel.order[i], List.mem_iff_getElem.mpr ⟨i, ?_, ?_⟩⟩
  · rw [tags, List.length_zip]
    omega
  · simp [tags]

theorem mem_numbers_of_mem_tags
    {g : Handle}
    {n : Nat}
    (mem : (g, n) ∈ w.tags) :
    n ∈ w.numbers :=
  (List.of_mem_zip mem).2

theorem getElem_mem_tags
    {position : Nat}
    (inside : position < w.reel.order.length)
    (inRow : position < w.row.length) :
    (w.reel.order[position], w.row[position].number) ∈ w.tags := by
  refine List.mem_iff_getElem?.mpr ⟨position, List.getElem?_zip_eq_some.mpr ⟨?_, ?_⟩⟩
  · exact List.getElem?_eq_getElem inside
  · rw [numbers, List.getElem?_map, List.getElem?_eq_getElem inRow, Option.map_some]

theorem length_row
    (sound : w.Sound) :
    w.row.length = w.reel.order.length := by
  rw [← sound.length_numbers, numbers, List.length_map]

/-- The handle that was given out for a place is the one that the order holds there. -/
theorem issued_iff
    (sound : w.Sound)
    {h : Handle}
    {position : Nat}
    (inside : position < w.reel.order.length)
    (inRow : position < w.row.length) :
    (h, w.row[position].number) ∈ w.issued ↔ w.reel.order[position] = h := by
  have tag := getElem_mem_tags inside inRow
  constructor
  · intro given
    exact sound.unique _ _ given _ tag
  · rintro rfl
    exact sound.tagged _ tag

/-- The reel locates a handle at the place that the handle was given out for. -/
theorem place?_eq
    (sound : w.Sound)
    (h : Handle) :
    w.place? h = w.reel.position? h := by
  have same : w.row.map (fun node => decide ((h, node.number) ∈ w.issued)) =
      w.reel.order.map (· == h) := by
    apply List.ext_getElem
    · simpa using sound.length_row
    · intro position inRow inside
      rw [List.length_map] at inRow inside
      rw [List.getElem_map, List.getElem_map, Bool.eq_iff_iff, decide_eq_true_iff, beq_iff_eq]
      exact sound.issued_iff inside inRow
  have rowMap := List.findIdx?_map (p := id) (l := w.row)
    (f := fun node => decide ((h, node.number) ∈ w.issued))
  have orderMap := List.findIdx?_map (p := id) (l := w.reel.order) (f := (· == h))
  rw [same] at rowMap
  exact rowMap.symm.trans orderMap

/-! ### Places that leave and places that come -/

theorem replace_tags
    (sound : w.Sound)
    {reel : Reel α}
    {handles : List Handle}
    {position count : Nat}
    {items : List α}
    (order : reel.order =
      w.reel.order.take position ++ handles ++ w.reel.order.drop (position + count))
    (lengths : handles.length = items.length) :
    (w.replace reel handles position count items).tags =
      w.tags.take position ++ handles.zip (List.range' w.born items.length) ++
        w.tags.drop (position + count) := by
  have same := sound.length_numbers
  rw [tags, replace_numbers]
  change reel.order.zip _ = _
  rw [order, List.zip_append (by simp [lengths, same]), List.zip_append (by simp [same])]
  simp only [tags, List.zip, List.take_zipWith, List.drop_zipWith]

section Replace

variable {reel : Reel α} {handles : List Handle} {position count : Nat} {items : List α}

/-- A new number was not in the row before. -/
theorem lt_of_mem_range'
    (sound : w.Sound)
    {n m : Nat}
    (old : n ∈ w.numbers)
    (new : m ∈ List.range' w.born items.length) :
    n < m :=
  Nat.lt_of_lt_of_le (sound.numbers_lt n old) (List.mem_range'_1.mp new).1

theorem replace_nodup
    (sound : w.Sound) :
    (w.replace reel handles position count items).numbers.Nodup := by
  have kept : (w.numbers.take position ++ w.numbers.drop (position + count)).Sublist
      w.numbers := by
    conv_rhs => rw [← List.take_append_drop position w.numbers]
    rw [← List.drop_drop]
    exact (List.Sublist.refl _).append (List.drop_sublist count _)
  rw [replace_numbers, List.append_assoc, (List.perm_append_comm.append_left _).nodup_iff,
    ← List.append_assoc, List.nodup_append]
  refine ⟨sound.nodup.sublist kept, List.nodup_range', ?_⟩
  rintro n old _ new rfl
  exact Nat.lt_irrefl n (sound.lt_of_mem_range' (kept.mem old) new)

/-- A tag after the step is an old one, or a new handle with a new number. -/
theorem mem_replace_tags
    (sound : w.Sound)
    (order : reel.order =
      w.reel.order.take position ++ handles ++ w.reel.order.drop (position + count))
    (lengths : handles.length = items.length)
    {entry : Handle × Nat}
    (mem : entry ∈ (w.replace reel handles position count items).tags) :
    entry ∈ w.tags ∨ entry ∈ handles.zip (List.range' w.born items.length) := by
  rw [replace_tags sound order lengths, List.mem_append, List.mem_append] at mem
  rcases mem with (before | new) | behind
  · exact .inl (List.mem_of_mem_take before)
  · exact .inr new
  · exact .inl (List.mem_of_mem_drop behind)

theorem replace_unique
    (sound : w.Sound)
    (order : reel.order =
      w.reel.order.take position ++ handles ++ w.reel.order.drop (position + count))
    (lengths : handles.length = items.length)
    {g h : Handle}
    {n : Nat}
    (issued : (h, n) ∈ (w.replace reel handles position count items).issued)
    (tagged : (g, n) ∈ (w.replace reel handles position count items).tags) :
    g = h := by
  rw [replace_issued] at issued
  rcases List.mem_append.mp issued with old | new <;>
    rcases sound.mem_replace_tags order lengths tagged with there | fresh
  · exact sound.unique h n old g there
  · have := (List.mem_range'_1.mp (List.of_mem_zip fresh).2).1
    exact absurd (sound.issued_lt _ old) (Nat.not_lt.mpr this)
  · have := sound.lt_of_mem_range' (mem_numbers_of_mem_tags there) (List.of_mem_zip new).2
    exact absurd this (Nat.lt_irrefl n)
  · exact eq_of_mem_zip List.nodup_range' fresh new

/-- The handle of a place that leaves the row has the generation that its slot had until now. -/
theorem exists_generation_of_leaving
    (sound : w.Sound)
    {h : Handle}
    {n : Nat}
    (issued : (h, n) ∈ w.issued)
    (present : n ∈ w.numbers)
    (notBefore : n ∉ w.numbers.take position)
    (notBehind : n ∉ w.numbers.drop (position + count)) :
    h ∈ (w.reel.order.drop position).take count ∧
      h.generation = UInt32.ofNat (w.released.count h.slot) := by
  obtain ⟨g, tagged⟩ := sound.exists_tag present
  obtain rfl := sound.unique h n issued g tagged
  have leaving := mem_middle_of_mem_zip tagged notBefore notBehind
  obtain ⟨s, found, generation⟩ := AccountsFor.live sound.wellFormed g
    (List.mem_of_mem_drop (List.mem_of_mem_take leaving))
  exact ⟨leaving, by rw [← generation, sound.counts.generation g.slot s found]⟩

theorem replace_gone
    (sound : w.Sound)
    {h : Handle}
    {n : Nat}
    (issued : (h, n) ∈ (w.replace reel handles position count items).issued)
    (absent : n ∉ (w.replace reel handles position count items).numbers) :
    ∃ k < (w.replace reel handles position count items).released.count h.slot,
      h.generation = UInt32.ofNat k := by
  change ∃ k < (w.released ++ ((w.reel.order.drop position).take count).map
    Handle.slot).count h.slot, _
  rw [List.count_append]
  rw [replace_numbers, List.mem_append, List.mem_append, not_or, not_or] at absent
  rw [replace_issued] at issued
  rcases List.mem_append.mp issued with old | new
  · by_cases present : n ∈ w.numbers
    · -- The place leaves the row in this step, so its slot is released in this step.
      obtain ⟨leaving, generation⟩ :=
        sound.exists_generation_of_leaving old present absent.1.1 absent.2
      refine ⟨w.released.count h.slot, ?_, generation⟩
      have := List.count_pos_iff.mpr (List.mem_map_of_mem (f := Handle.slot) leaving)
      omega
    · obtain ⟨k, below, generation⟩ := sound.gone h n old present
      exact ⟨k, Nat.lt_add_right _ below, generation⟩
  · exact absurd (List.of_mem_zip new).2 absent.1.2

/-- What holds of the row before holds after some places gave way to new ones. -/
theorem replace
    (sound : w.Sound)
    (order : reel.order =
      w.reel.order.take position ++ handles ++ w.reel.order.drop (position + count))
    (places : reel.places =
      w.reel.places.take position ++ items.map some ++ w.reel.places.drop (position + count))
    (lengths : handles.length = items.length)
    (wellFormed : reel.WellFormed)
    (counts : reel.Counts (w.replace reel handles position count items).released) :
    (w.replace reel handles position count items).Sound := by
  constructor
  case wellFormed => exact wellFormed
  case items_eq => rw [replace_items, sound.items_eq]; exact places.symm
  case nodup => exact sound.replace_nodup
  case numbers_lt =>
    intro n mem
    rcases mem_replace_numbers mem with old | new
    · exact Nat.lt_add_right _ (sound.numbers_lt n old)
    · exact (List.mem_range'_1.mp new).2
  case issued_lt =>
    intro entry mem
    rw [replace_issued] at mem
    rcases List.mem_append.mp mem with old | new
    · exact Nat.lt_add_right _ (sound.issued_lt entry old)
    · exact (List.mem_range'_1.mp (List.of_mem_zip new).2).2
  case tagged =>
    intro entry there
    rw [replace_issued, List.mem_append]
    exact (sound.mem_replace_tags order lengths there).imp_left (sound.tagged entry)
  case unique => exact fun h n issued g tagged => sound.replace_unique order lengths issued tagged
  case counts => exact counts
  case gone => exact fun h n issued absent => sound.replace_gone issued absent

end Replace

/-! ### Places that hold other items -/

theorem refill
    (sound : w.Sound)
    {reel : Reel α}
    {items : List (Option α)}
    (same : SameFrame w.reel reel)
    (places : reel.places = items) :
    (w.refill reel items).Sound := by
  have length : w.row.length = items.length := by
    have := sound.length_numbers
    rw [← places, length_places, Reel.length, same.order, ← this, numbers, List.length_map]
  have numbers' : (w.refill reel items).numbers = w.numbers := (fill_row length).1
  have items' : (w.refill reel items).items = items := (fill_row length).2
  have tags' : (w.refill reel items).tags = w.tags := by
    rw [tags, tags, numbers']
    exact congrArg (·.zip w.numbers) same.order
  constructor
  case wellFormed => exact sound.wellFormed.sameFrame same
  case items_eq => rw [items']; exact places.symm
  case nodup => rw [numbers']; exact sound.nodup
  case numbers_lt => rw [numbers']; exact sound.numbers_lt
  case issued_lt => exact sound.issued_lt
  case tagged => rw [tags']; exact sound.tagged
  case unique => rw [tags']; exact sound.unique
  case counts => exact sound.counts.of_generations same.generations
  case gone => rw [numbers']; exact sound.gone

theorem put_places
    (sound : w.Sound)
    (h : Handle)
    (item : Option α) :
    (w.reel.put h item).places = w.itemsWith h fun _ => item := by
  rw [itemsWith, sound.place?_eq]
  split
  · next position located =>
    have found := getElem?_of_position? located
    rw [sound.wellFormed.put_places found, sound.items_eq, List.modify_eq_set]
  · next nowhere =>
    rw [sound.items_eq]
    exact sound.wellFormed.put_places_of_not_mem (position?_eq_none_iff.mp nowhere) item

theorem modify_places
    (sound : w.Sound)
    (h : Handle)
    (f : α → α) :
    (w.reel.modify h f).places = w.itemsWith h (Option.map f) := by
  rw [itemsWith, sound.place?_eq, sound.items_eq]
  split
  · next position located =>
    exact sound.wellFormed.modify_places (getElem?_of_position? located) f
  · next nowhere =>
    exact sound.wellFormed.modify_places_of_not_mem (position?_eq_none_iff.mp nowhere) f

/-- A step that leaves what is in the row, what was issued and what was released. -/
theorem reorder
    (sound : w.Sound)
    {order : List Handle}
    {row : List (Node α)}
    (wellFormed : WellFormed { w.reel with order })
    (items_eq : row.map Node.item = order.map w.reel.get?)
    (permuted : (row.map Node.number).Perm w.numbers)
    (tagged : ∀ entry ∈ order.zip (row.map Node.number), entry ∈ w.tags) :
    History.Sound { w with reel := { w.reel with order }, row } where
  wellFormed := wellFormed
  items_eq := items_eq
  nodup := permuted.nodup_iff.mpr sound.nodup
  numbers_lt n mem := sound.numbers_lt n (permuted.mem_iff.mp mem)
  issued_lt := sound.issued_lt
  tagged entry there := sound.tagged entry (tagged entry there)
  unique h n mem g there := sound.unique h n mem g (tagged _ there)
  counts := sound.counts.of_generations rfl
  gone h n mem absent := sound.gone h n mem (mt permuted.mem_iff.mpr absent)

theorem reverse
    (sound : w.Sound) :
    History.Sound { w with reel := w.reel.reverse, row := w.row.reverse } := by
  have items_eq : w.row.map Node.item = w.reel.order.map w.reel.get? := sound.items_eq
  refine sound.reorder sound.wellFormed.reverse ?_ ?_ ?_
  · rw [List.map_reverse, items_eq, List.map_reverse]
  · rw [List.map_reverse]
    exact List.reverse_perm _
  · intro entry mem
    have reversed := List.reverse_zipWith (f := Prod.mk) sound.length_numbers.symm
    rw [List.map_reverse, List.zip] at mem
    exact List.mem_reverse.mp (reversed ▸ mem)

theorem exchange
    (sound : w.Sound)
    {i j : Nat}
    {reel : Reel α}
    (swapped : w.reel.swap i j = some reel)
    (iInRow : i < w.row.length)
    (jInRow : j < w.row.length) :
    History.Sound { w with reel, row := (w.row.set i w.row[j]).set j w.row[i] } := by
  have wellFormed := sound.wellFormed.swap swapped
  obtain ⟨iInside, jInside, rfl⟩ := swap_eq_some_iff.mp swapped
  have items_eq : w.row.map Node.item = w.reel.order.map w.reel.get? := sound.items_eq
  have iItem : w.row[i].item = w.reel.get? w.reel.order[i] := by
    simpa [iInside, iInRow] using congrArg (·[i]?) items_eq
  have jItem : w.row[j].item = w.reel.get? w.reel.order[j] := by
    simpa [jInside, jInRow] using congrArg (·[j]?) items_eq
  have iTag : (w.reel.order[i], w.row[i].number) ∈ w.tags := getElem_mem_tags iInside iInRow
  have jTag : (w.reel.order[j], w.row[j].number) ∈ w.tags := getElem_mem_tags jInside jInRow
  refine sound.reorder wellFormed ?_ ?_ ?_
  · simp only [List.map_set, items_eq, iItem, jItem]
  · exact (List.set_set_perm iInRow jInRow).map Node.number
  · rintro ⟨h, n⟩ mem
    obtain ⟨k, there⟩ := List.mem_iff_getElem?.mp mem
    rw [List.getElem?_zip_eq_some] at there
    simp only [List.map_set, List.getElem?_set, List.length_set, List.length_map] at there
    -- Position `j` has the entry of `i`, position `i` that of `j`, and the others keep theirs.
    by_cases atJ : j = k
    · subst atJ
      simp only [if_true, jInside, jInRow, Option.some.injEq] at there
      rw [← there.1, ← there.2]
      exact iTag
    · by_cases atI : i = k
      · subst atI
        simp only [if_neg atJ, if_true, iInside, iInRow, Option.some.injEq] at there
        rw [← there.1, ← there.2]
        exact jTag
      · simp only [if_neg atJ, if_neg atI] at there
        exact List.mem_iff_getElem?.mpr ⟨k, List.getElem?_zip_eq_some.mpr there⟩

theorem swap
    (sound : w.Sound)
    (i j : Nat) :
    History.Sound { w with reel := (w.reel.swap i j).getD w.reel, row := w.swapRow i j } := by
  cases swapped : w.reel.swap i j with
  | none =>
      have row : w.swapRow i j = w.row := by
        rw [swapRow]
        split
        · next a b aFound bFound =>
          have inside := swap_eq_none_iff.mp swapped
          rw [length_places, Reel.length, ← sound.length_row] at inside
          have iInRow := (List.getElem?_eq_some_iff.mp aFound).1
          have jInRow := (List.getElem?_eq_some_iff.mp bFound).1
          omega
        · rfl
      rw [row]
      exact sound
  | some reel =>
      obtain ⟨iInside, jInside, -⟩ := swap_eq_some_iff.mp swapped
      have iInRow : i < w.row.length := by rwa [sound.length_row]
      have jInRow : j < w.row.length := by rwa [sound.length_row]
      have row : w.swapRow i j = (w.row.set i w.row[j]).set j w.row[i] := by
        rw [swapRow, List.getElem?_eq_getElem iInRow, List.getElem?_eq_getElem jInRow]
      rw [row]
      exact sound.exchange swapped iInRow jInRow

/-! ### The edits -/

theorem insert
    (sound : w.Sound)
    {position : Nat}
    {item : α}
    {h : Handle}
    {reel : Reel α}
    (inserted : w.reel.insert position item = some (h, reel)) :
    (w.replace reel [h] position 0 [item]).Sound := by
  have wellFormed := sound.wellFormed.insert inserted
  have places := sound.wellFormed.insert_places inserted
  obtain ⟨inside, rfl, rfl⟩ := insert_eq_some_iff.mp inserted
  refine sound.replace ?_ ?_ rfl wellFormed ?_
  · exact insertIdx_eq_take_append_drop inside
  · rw [places, insertIdx_eq_take_append_drop (by rwa [length_places])]
    rfl
  · have counts := (sound.counts.allocate item).withOrder
      (w.reel.order.insertIdx position (w.reel.allocate item).1)
    simpa [History.replace] using counts

theorem push
    (sound : w.Sound)
    (item : α) :
    (w.push item).Sound := by
  have inserted : w.reel.insert w.row.length item = some (w.reel.push item) := by
    rw [push_eq, ← List.insertIdx_length_self, sound.length_row]
    exact insert_eq_some_iff.mpr ⟨Nat.le_refl _, rfl, rfl⟩
  exact sound.insert inserted

theorem pushes
    (sound : w.Sound)
    (items : List α) :
    (items.foldl History.push w).Sound := by
  induction items generalizing w with
  | nil => exact sound
  | cons item items inductionHypothesis => exact inductionHypothesis (sound.push item)

theorem splice
    (sound : w.Sound)
    {h : Handle}
    {position : Nat}
    (located : w.reel.position? h = some position)
    (items : List α) :
    (w.replace (w.reel.splice h items).2 (w.reel.splice h items).1 position 1 items).Sound := by
  have wellFormed := sound.wellFormed.splice h items
  have places := sound.wellFormed.splice_places located items
  have found := getElem?_of_position? located
  obtain ⟨s, live⟩ := AccountsFor.exists_live? sound.wellFormed (List.mem_of_getElem? found)
  refine sound.replace ?_ places ?_ wellFormed ?_
  · rw [splice_of_located located]
  · rw [splice_of_located located, allocateAll_length]
  · have counts := ((sound.counts.release live).allocateAll items).withOrder
      (w.reel.splice h items).2.order
    rw [splice_of_located located] at counts ⊢
    simpa [History.replace, List.take_one, found] using counts

theorem remove
    (sound : w.Sound)
    (position : Nat) :
    (w.remove position).Sound := by
  have order : (w.reel.remove position).2.order = w.reel.order.eraseIdx position := by
    cases found : w.reel.order[position]? with
    | none =>
        rw [remove_of_not_found found]
        exact (List.eraseIdx_of_length_le (List.getElem?_eq_none_iff.mp found)).symm
    | some h => rw [remove_of_found found]
  refine sound.replace ?_ ?_ rfl (sound.wellFormed.remove position) ?_
  · rw [order, List.eraseIdx_eq_take_drop_succ, List.append_nil]
  · rw [sound.wellFormed.remove_places, List.eraseIdx_eq_take_drop_succ, List.map_nil,
      List.append_nil]
  · cases found : w.reel.order[position]? with
    | none =>
        rw [remove_of_not_found found]
        simpa [History.replace, List.take_one, found] using sound.counts
    | some h =>
        obtain ⟨s, live⟩ := AccountsFor.exists_live? sound.wellFormed
          (List.mem_of_getElem? found)
        have counts := (sound.counts.release live).withOrder (w.reel.order.eraseIdx position)
        rw [remove_of_found found]
        simpa [History.replace, List.take_one, found] using counts

/-- Every edit keeps a history sound. -/
theorem next
    (sound : w.Sound)
    (edit : Edit α) :
    (w.next edit).Sound := by
  cases edit with
  | push item => exact sound.push item
  | extend items => exact sound.pushes items
  | append other => exact sound.pushes other.intoList
  | insert position item =>
      cases inserted : w.reel.insert position item with
      | none => simpa [History.next, inserted] using sound
      | some result => simpa [History.next, inserted] using sound.insert inserted
  | modify h f => exact sound.refill (.modify _ h f) (sound.modify_places h f)
  | modifyAt position f =>
      refine sound.refill (.modifyAt _ position f) ?_
      rw [sound.items_eq, sound.wellFormed.modifyAt_places]
  | updateAll f =>
      refine sound.refill (.updateAll _ f) ?_
      rw [sound.items_eq, sound.wellFormed.updateAll_places]
  | take h => exact sound.refill (.put _ h none) (sound.put_places h none)
  | restore h item => exact sound.refill (.put _ h _) (sound.put_places h (some item))
  | splice h items =>
      cases located : w.reel.position? h with
      | none =>
          have place : w.place? h = none := (sound.place?_eq h).trans located
          rw [History.next, place, splice_of_not_located located]
          exact sound
      | some position =>
          have place : w.place? h = some position := (sound.place?_eq h).trans located
          rw [History.next, place]
          exact sound.splice located items
  | remove position => exact sound.remove position
  | removeFirst => exact sound.remove 0
  | removeLast =>
      rw [History.next, removeLast_eq, ← sound.length_row]
      exact sound.remove _
  | swap i j => exact sound.swap i j
  | reverse => exact sound.reverse

end Sound
end History

end Reel
end Darkroom
