import Darkroom.Reel
import Mathlib.Data.List.Nodup
import Mathlib.Data.List.Perm.Basic

/-!
# Well-formed reels

The slots, the order and the free list of a reel are kept apart, so nothing but the operations ties
them together.  A reel accounts for a list of handles when these handles own different slots, each
under the generation it carries, and the free list holds exactly the other slots, each once.  A reel
is well-formed when it accounts for its order.

An operation in progress, such as a replacement whose old place is released and whose new places are
not yet in the order, accounts for a list of handles that is not its order.  This is why the
invariant takes the list as an argument: each of the three primitive steps adds or drops one handle,
and every operation is a chain of such steps.
-/

namespace Darkroom
namespace Reel

variable {α : Type} {r : Reel α} {used : List Handle}

/-- The handles in use own different slots under their generations; all other slots are free. -/
structure AccountsFor (r : Reel α) (used : List Handle) : Prop where
  /-- No slot is used twice. -/
  nodup : (used.map Handle.slot).Nodup
  /-- The slot of every handle exists and has its generation. -/
  live : ∀ h ∈ used, ∃ s, r.slots[h.slot]? = some s ∧ s.generation = h.generation
  /-- No slot is free twice. -/
  free_nodup : r.free.Nodup
  /-- Free are the slots that no handle uses. -/
  mem_free_iff : ∀ slot,
    slot ∈ r.free ↔ slot < r.slots.length ∧ slot ∉ used.map Handle.slot

/-- The reel accounts for its order. -/
def WellFormed (r : Reel α) : Prop :=
  r.AccountsFor r.order

/-! ## Reading a slot through a handle -/

theorem live?_eq_some_iff
    {h : Handle}
    {s : Slot α} :
    r.live? h = some s ↔ r.slots[h.slot]? = some s ∧ s.generation = h.generation := by
  simp [live?, Option.filter_eq_some_iff]

/-- What a handle names depends on its slot alone. -/
theorem live?_congr
    {r' : Reel α}
    {h : Handle}
    (same : r'.slots[h.slot]? = r.slots[h.slot]?) :
    r'.live? h = r.live? h := by
  simp only [live?, same]

theorem get?_congr
    {r' : Reel α}
    {h : Handle}
    (same : r'.slots[h.slot]? = r.slots[h.slot]?) :
    r'.get? h = r.get? h := by
  simp only [get?, live?_congr same]

theorem get?_of_slot
    {h : Handle}
    {item : Option α}
    (found : r.slots[h.slot]? = some ⟨h.generation, item⟩) :
    r.get? h = item := by
  have live : r.live? h = some ⟨h.generation, item⟩ :=
    live?_eq_some_iff.mpr ⟨found, rfl⟩
  simp [get?, live]

namespace AccountsFor

/-- A handle in use names its slot. -/
theorem exists_live?
    (accounts : r.AccountsFor used)
    {h : Handle}
    (mem : h ∈ used) :
    ∃ s, r.live? h = some s := by
  obtain ⟨s, found, generation⟩ := accounts.live h mem
  exact ⟨s, live?_eq_some_iff.mpr ⟨found, generation⟩⟩

/-- The generation check never fails for a handle in use. -/
theorem itemAt?_eq_get?
    (accounts : r.AccountsFor used)
    {h : Handle}
    (mem : h ∈ used) :
    r.itemAt? h.slot = r.get? h := by
  obtain ⟨s, live⟩ := accounts.exists_live? mem
  have found := (live?_eq_some_iff.mp live).1
  simp [itemAt?, get?, live, found]

theorem slot_lt
    (accounts : r.AccountsFor used)
    {h : Handle}
    (mem : h ∈ used) :
    h.slot < r.slots.length := by
  obtain ⟨s, found, -⟩ := accounts.live h mem
  exact (List.getElem?_eq_some_iff.mp found).1

/-- A handle that names the slot of a handle in use is that handle. -/
theorem eq_of_live?
    (accounts : r.AccountsFor used)
    {g h : Handle}
    {s : Slot α}
    (mem : h ∈ used)
    (live : r.live? g = some s)
    (same : g.slot = h.slot) :
    g = h := by
  obtain ⟨t, found, generation⟩ := accounts.live h mem
  obtain ⟨found', generation'⟩ := live?_eq_some_iff.mp live
  rw [same, found] at found'
  obtain rfl := Option.some.inj found'
  cases g
  cases h
  simp_all

/-- The order of the handles in use does not matter. -/
theorem perm
    (accounts : r.AccountsFor used)
    {used' : List Handle}
    (permuted : used.Perm used') :
    r.AccountsFor used' where
  nodup := (permuted.map Handle.slot).nodup_iff.mp accounts.nodup
  live h mem := accounts.live h (permuted.mem_iff.mpr mem)
  free_nodup := accounts.free_nodup
  mem_free_iff slot := by
    rw [accounts.mem_free_iff, (permuted.map Handle.slot).mem_iff]

/-- What the slots hold does not matter, only their generations do. -/
theorem of_generations
    (accounts : r.AccountsFor used)
    {r' : Reel α}
    (free : r'.free = r.free)
    (generations : r'.slots.map Slot.generation = r.slots.map Slot.generation) :
    r'.AccountsFor used where
  nodup := accounts.nodup
  live h mem := by
    obtain ⟨s, found, generation⟩ := accounts.live h mem
    have image : (r'.slots.map Slot.generation)[h.slot]? = some h.generation := by
      rw [generations, List.getElem?_map, found, Option.map_some, generation]
    rw [List.getElem?_map, Option.map_eq_some_iff] at image
    exact image
  free_nodup := free ▸ accounts.free_nodup
  mem_free_iff slot := by
    have length : r'.slots.length = r.slots.length := by
      simpa using congrArg List.length generations
    rw [free, length, accounts.mem_free_iff]

/-- A reel that accounts for some handles is well-formed with them as its order. -/
theorem wellFormed
    {order : List Handle}
    (accounts : r.AccountsFor order) :
    WellFormed { r with order } :=
  accounts.of_generations rfl rfl

end AccountsFor

/-! ## Placing an item in a slot -/

@[simp] theorem allocate_order
    (r : Reel α)
    (item : α) :
    (r.allocate item).2.order = r.order := by
  unfold allocate
  split <;> rfl

/-- Placing an item leaves every other slot as it is. -/
theorem allocate_slots_of_ne
    (r : Reel α)
    (item : α)
    {slot : Nat}
    (other : slot ≠ (r.allocate item).1.slot) :
    (r.allocate item).2.slots[slot]? = r.slots[slot]? := by
  unfold allocate at other ⊢
  split at other
  · simp [List.getElem?_set_ne (Ne.symm other)]
  · simp only [List.getElem?_append]
    split
    · rfl
    · simp only [ne_eq] at other
      rw [List.getElem?_eq_none (by simp; omega), List.getElem?_eq_none (by omega)]

namespace AccountsFor

/-- The slot of a new item is not in use. -/
theorem allocate_slot_not_mem
    (accounts : r.AccountsFor used)
    (item : α) :
    (r.allocate item).1.slot ∉ used.map Handle.slot := by
  unfold Reel.allocate
  split
  · next slot free isFree =>
    have mem : slot ∈ r.free := by rw [isFree]; exact List.mem_cons_self
    exact ((accounts.mem_free_iff slot).mp mem).2
  · intro mem
    obtain ⟨h, inUse, same⟩ := List.mem_map.mp mem
    have := accounts.slot_lt inUse
    simp only at same
    omega

/-- The slot of a new item holds it under the generation of the new handle. -/
theorem allocate_slots_self
    (accounts : r.AccountsFor used)
    (item : α) :
    (r.allocate item).2.slots[(r.allocate item).1.slot]? =
      some ⟨(r.allocate item).1.generation, some item⟩ := by
  unfold Reel.allocate
  split
  · next slot free isFree =>
    have mem : slot ∈ r.free := by rw [isFree]; exact List.mem_cons_self
    have inside := ((accounts.mem_free_iff slot).mp mem).1
    simp [inside]
  · simp

theorem allocate_get?_self
    (accounts : r.AccountsFor used)
    (item : α) :
    (r.allocate item).2.get? (r.allocate item).1 = some item :=
  get?_of_slot (accounts.allocate_slots_self item)

theorem allocate_get?_of_mem
    (accounts : r.AccountsFor used)
    (item : α)
    {h : Handle}
    (mem : h ∈ used) :
    (r.allocate item).2.get? h = r.get? h := by
  apply get?_congr
  apply allocate_slots_of_ne
  intro same
  exact accounts.allocate_slot_not_mem item (same ▸ List.mem_map_of_mem mem)

/-- Placing an item puts one more handle in use. -/
theorem allocate
    (accounts : r.AccountsFor used)
    (item : α) :
    (r.allocate item).2.AccountsFor ((r.allocate item).1 :: used) where
  nodup := by
    rw [List.map_cons]
    exact List.nodup_cons.mpr ⟨accounts.allocate_slot_not_mem item, accounts.nodup⟩
  live h mem := by
    rcases List.mem_cons.mp mem with rfl | inUse
    · exact ⟨_, accounts.allocate_slots_self item, rfl⟩
    · rw [allocate_slots_of_ne]
      · exact accounts.live h inUse
      · intro same
        exact accounts.allocate_slot_not_mem item (same ▸ List.mem_map_of_mem inUse)
  free_nodup := by
    unfold Reel.allocate
    split
    · next slot free isFree =>
      exact (List.nodup_cons.mp (isFree ▸ accounts.free_nodup)).2
    · exact accounts.free_nodup
  mem_free_iff slot := by
    have old := accounts.mem_free_iff slot
    unfold Reel.allocate
    split
    · next first free isFree =>
      have nodup := List.nodup_cons.mp (isFree ▸ accounts.free_nodup)
      rw [isFree, List.mem_cons] at old
      simp only [List.length_set, List.map_cons, List.mem_cons, not_or]
      constructor
      · intro mem
        have different : slot ≠ first := fun same => nodup.1 (same ▸ mem)
        exact ⟨(old.mp (.inr mem)).1, different, (old.mp (.inr mem)).2⟩
      · rintro ⟨inside, different, unused⟩
        exact (old.mpr ⟨inside, unused⟩).resolve_left different
    · next isFree =>
      simp only [isFree, List.not_mem_nil, false_iff, not_and, not_not,
        List.length_append, List.length_singleton, List.map_cons, List.mem_cons] at old ⊢
      intro inside
      by_cases last : slot = r.slots.length
      · exact .inl last
      · exact .inr (old (by omega))

end AccountsFor

/-! ## Placing several items -/

theorem allocateAll_cons
    (r : Reel α)
    (item : α)
    (items : List α) :
    r.allocateAll (item :: items) =
      ((r.allocate item).1 :: ((r.allocate item).2.allocateAll items).1,
        ((r.allocate item).2.allocateAll items).2) := rfl

@[simp] theorem allocateAll_order
    (r : Reel α)
    (items : List α) :
    (r.allocateAll items).2.order = r.order := by
  induction items generalizing r with
  | nil => rfl
  | cons item items inductionHypothesis =>
      rw [allocateAll_cons, inductionHypothesis, allocate_order]

@[simp] theorem allocateAll_length
    (r : Reel α)
    (items : List α) :
    (r.allocateAll items).1.length = items.length := by
  induction items generalizing r with
  | nil => rfl
  | cons item items inductionHypothesis =>
      rw [allocateAll_cons, List.length_cons, inductionHypothesis, List.length_cons]

namespace AccountsFor

theorem allocateAll_get?_of_mem
    (accounts : r.AccountsFor used)
    (items : List α)
    {h : Handle}
    (mem : h ∈ used) :
    (r.allocateAll items).2.get? h = r.get? h := by
  induction items generalizing r used with
  | nil => rfl
  | cons item items inductionHypothesis =>
      rw [allocateAll_cons]
      rw [inductionHypothesis (accounts.allocate item) (List.mem_cons_of_mem _ mem)]
      exact accounts.allocate_get?_of_mem item mem

/-- The new handles name the items in their order. -/
theorem allocateAll_map_get?
    (accounts : r.AccountsFor used)
    (items : List α) :
    (r.allocateAll items).1.map (r.allocateAll items).2.get? = items.map some := by
  induction items generalizing r used with
  | nil => rfl
  | cons item items inductionHypothesis =>
      have first := accounts.allocate item
      rw [allocateAll_cons, List.map_cons, List.map_cons, inductionHypothesis first]
      rw [first.allocateAll_get?_of_mem items List.mem_cons_self]
      rw [accounts.allocate_get?_self]

/-- Placing items puts their handles in use. -/
theorem allocateAll
    (accounts : r.AccountsFor used)
    (items : List α) :
    (r.allocateAll items).2.AccountsFor ((r.allocateAll items).1 ++ used) := by
  induction items generalizing r used with
  | nil => exact accounts
  | cons item items inductionHypothesis =>
      rw [allocateAll_cons]
      exact (inductionHypothesis (accounts.allocate item)).perm List.perm_middle

end AccountsFor

/-! ## Setting a slot free -/

@[simp] theorem release_order
    (r : Reel α)
    (h : Handle) :
    (r.release h).order = r.order := by
  unfold release
  split <;> rfl

theorem release_slots_of_ne
    (r : Reel α)
    {h : Handle}
    {slot : Nat}
    (other : slot ≠ h.slot) :
    (r.release h).slots[slot]? = r.slots[slot]? := by
  unfold release
  split
  · simp [List.getElem?_set_ne (Ne.symm other)]
  · rfl

/-- A released slot is empty and one generation further. -/
theorem release_slots_self
    {h : Handle}
    {s : Slot α}
    (live : r.live? h = some s) :
    (r.release h).slots[h.slot]? = some ⟨s.generation + 1, none⟩ := by
  obtain ⟨found, -⟩ := live?_eq_some_iff.mp live
  have inside := (List.getElem?_eq_some_iff.mp found).1
  simp [release, live, inside]

namespace AccountsFor

theorem release_get?_of_mem
    {h : Handle}
    (accounts : r.AccountsFor (h :: used))
    {g : Handle}
    (mem : g ∈ used) :
    (r.release h).get? g = r.get? g := by
  apply get?_congr
  apply release_slots_of_ne
  intro same
  have nodup := accounts.nodup
  rw [List.map_cons] at nodup
  exact (List.nodup_cons.mp nodup).1 (same ▸ List.mem_map_of_mem mem)

/-- Setting a slot free takes its handle out of use. -/
theorem release
    {h : Handle}
    (accounts : r.AccountsFor (h :: used)) :
    (r.release h).AccountsFor used := by
  obtain ⟨s, live⟩ := accounts.exists_live? List.mem_cons_self
  have nodup := accounts.nodup
  rw [List.map_cons, List.nodup_cons] at nodup
  have notFree : h.slot ∉ r.free := by
    intro free
    exact ((accounts.mem_free_iff _).mp free).2 (by simp)
  constructor
  · exact nodup.2
  · intro g mem
    rw [release_slots_of_ne]
    · exact accounts.live g (List.mem_cons_of_mem _ mem)
    · intro same
      exact nodup.1 (same ▸ List.mem_map_of_mem mem)
  · simpa [Reel.release, live] using ⟨notFree, accounts.free_nodup⟩
  · intro slot
    have inside := accounts.slot_lt List.mem_cons_self
    have old := accounts.mem_free_iff slot
    rw [List.map_cons, List.mem_cons] at old
    simp only [Reel.release, live, List.mem_cons, List.length_set, old]
    constructor
    · rintro (rfl | ⟨within, unused⟩)
      · exact ⟨inside, nodup.1⟩
      · exact ⟨within, fun mem => unused (.inr mem)⟩
    · rintro ⟨within, unused⟩
      by_cases same : slot = h.slot
      · exact .inl same
      · exact .inr ⟨within, fun mem => mem.elim same unused⟩

end AccountsFor

/-! ## Changing what a slot holds -/

@[simp] theorem put_order
    (r : Reel α)
    (h : Handle)
    (item : Option α) :
    (r.put h item).order = r.order := by
  unfold put
  split <;> rfl

@[simp] theorem put_free
    (r : Reel α)
    (h : Handle)
    (item : Option α) :
    (r.put h item).free = r.free := by
  unfold put
  split <;> rfl

/-- An old handle changes nothing. -/
theorem put_of_dead
    {h : Handle}
    (dead : r.live? h = none)
    (item : Option α) :
    r.put h item = r := by
  simp [put, dead]

theorem put_slots_of_ne
    (r : Reel α)
    {h : Handle}
    (item : Option α)
    {slot : Nat}
    (other : slot ≠ h.slot) :
    (r.put h item).slots[slot]? = r.slots[slot]? := by
  unfold put
  split
  · simp [List.getElem?_set_ne (Ne.symm other)]
  · rfl

theorem put_slots_self
    {h : Handle}
    {s : Slot α}
    (live : r.live? h = some s)
    (item : Option α) :
    (r.put h item).slots[h.slot]? = some ⟨h.generation, item⟩ := by
  obtain ⟨found, generation⟩ := live?_eq_some_iff.mp live
  have inside := (List.getElem?_eq_some_iff.mp found).1
  simp [put, live, inside, generation]

theorem put_generations
    (r : Reel α)
    (h : Handle)
    (item : Option α) :
    (r.put h item).slots.map Slot.generation = r.slots.map Slot.generation := by
  unfold put
  split
  · next s live =>
    obtain ⟨inside, rfl⟩ := List.getElem?_eq_some_iff.mp (live?_eq_some_iff.mp live).1
    rw [List.map_set]
    apply List.ext_getElem?
    intro slot
    rw [List.getElem?_set]
    split
    · next same => subst same; simp [inside]
    · rfl
  · rfl

theorem put_get?_self
    {h : Handle}
    {s : Slot α}
    (live : r.live? h = some s)
    (item : Option α) :
    (r.put h item).get? h = item :=
  get?_of_slot (put_slots_self live item)

theorem modifySlot_generations
    (r : Reel α)
    (slot : Nat)
    (f : α → α) :
    (r.modifySlot slot f).slots.map Slot.generation = r.slots.map Slot.generation := by
  apply List.ext_getElem?
  intro n
  simp only [modifySlot, List.getElem?_map, List.getElem?_modify]
  cases r.slots[n]? with
  | none => rfl
  | some s =>
      simp only [Option.map_eq_map, Option.map_some]
      split <;> rfl

/-- Two reels that differ in nothing but the items of their slots. -/
structure SameFrame (r r' : Reel α) : Prop where
  /-- The order is the same. -/
  order : r'.order = r.order
  /-- The free list is the same. -/
  free : r'.free = r.free
  /-- The generations of the slots are the same. -/
  generations : r'.slots.map Slot.generation = r.slots.map Slot.generation

namespace SameFrame

theorem refl
    (r : Reel α) :
    SameFrame r r :=
  ⟨rfl, rfl, rfl⟩

theorem trans
    {r' r'' : Reel α}
    (first : SameFrame r r')
    (second : SameFrame r' r'') :
    SameFrame r r'' :=
  ⟨second.order.trans first.order, second.free.trans first.free,
    second.generations.trans first.generations⟩

theorem put
    (r : Reel α)
    (h : Handle)
    (item : Option α) :
    SameFrame r (r.put h item) :=
  ⟨put_order r h item, put_free r h item, put_generations r h item⟩

theorem modify
    (r : Reel α)
    (h : Handle)
    (f : α → α) :
    SameFrame r (r.modify h f) := by
  unfold Reel.modify
  split
  · exact put r h _
  · exact refl r

theorem modifyAt
    (r : Reel α)
    (position : Nat)
    (f : α → α) :
    SameFrame r (r.modifyAt position f) := by
  unfold Reel.modifyAt
  split
  · exact modify r _ f
  · exact refl r

theorem updateAll
    (r : Reel α)
    (f : Nat → α → α) :
    SameFrame r (r.updateAll f) := by
  unfold Reel.updateAll
  generalize r.occupied.zipIdx = numbered
  induction numbered generalizing r with
  | nil => exact refl r
  | cons entry rest inductionHypothesis =>
      have first : SameFrame r (r.modifySlot entry.1 (f entry.2)) :=
        ⟨rfl, rfl, modifySlot_generations r entry.1 (f entry.2)⟩
      exact first.trans (inductionHypothesis _)

end SameFrame

namespace AccountsFor

theorem put_get?_of_ne
    (accounts : r.AccountsFor used)
    {g h : Handle}
    (mem : g ∈ used)
    (item : Option α)
    (different : g ≠ h) :
    (r.put h item).get? g = r.get? g := by
  cases live : r.live? h with
  | none => rw [put_of_dead live]
  | some s =>
      apply get?_congr
      apply put_slots_of_ne
      intro same
      exact different (accounts.eq_of_live? mem live same.symm).symm

end AccountsFor

/-! ## Equations of the operations that change the order -/

theorem push_eq
    (r : Reel α)
    (item : α) :
    r.push item =
      ((r.allocate item).1,
        { (r.allocate item).2 with order := r.order ++ [(r.allocate item).1] }) := by
  simp only [push, allocate_order]

theorem insert_eq_some_iff
    {position : Nat}
    {item : α}
    {h : Handle}
    {r' : Reel α} :
    r.insert position item = some (h, r') ↔
      position ≤ r.order.length ∧ (r.allocate item).1 = h ∧
        { (r.allocate item).2 with
          order := r.order.insertIdx position (r.allocate item).1 } = r' := by
  unfold insert
  split
  · next outside =>
    simp only [reduceCtorEq, false_iff, not_and]
    intro inside
    exact absurd outside (Nat.not_lt.mpr inside)
  · next inside =>
    have within : position ≤ r.order.length := Nat.not_lt.mp inside
    simp [within]

theorem getElem?_of_position?
    {h : Handle}
    {position : Nat}
    (located : r.position? h = some position) :
    r.order[position]? = some h := by
  obtain ⟨inside, same, -⟩ := List.findIdx?_eq_some_iff_getElem.mp located
  rw [List.getElem?_eq_getElem inside, eq_of_beq same]

theorem splice_of_not_located
    {h : Handle}
    (nowhere : r.position? h = none)
    (items : List α) :
    r.splice h items = ([], r) := by
  simp [splice, nowhere]

theorem splice_of_located
    {h : Handle}
    {position : Nat}
    (located : r.position? h = some position)
    (items : List α) :
    r.splice h items =
      (((r.release h).allocateAll items).1,
        { ((r.release h).allocateAll items).2 with
          order := r.order.take position ++ ((r.release h).allocateAll items).1 ++
            r.order.drop (position + 1) }) := by
  simp [splice, located]

/-- Setting a slot free does not look at the order. -/
theorem release_withOrder
    (r : Reel α)
    (order : List Handle)
    (h : Handle) :
    release { r with order } h = { r.release h with order } := by
  have same : live? { r with order } h = r.live? h := rfl
  cases live : r.live? h with
  | none => simp [release, same, live]
  | some s => simp [release, same, live]

theorem remove_of_found
    {position : Nat}
    {h : Handle}
    (found : r.order[position]? = some h) :
    r.remove position =
      (r.get? h, { r.release h with order := r.order.eraseIdx position }) := by
  simp [remove, handleAt?, found, release_withOrder]

theorem remove_of_not_found
    {position : Nat}
    (outside : r.order[position]? = none) :
    r.remove position = (none, r) := by
  simp [remove, handleAt?, outside]

theorem removeLast_eq
    (r : Reel α) :
    r.removeLast = r.remove (r.order.length - 1) := by
  unfold removeLast
  split
  · next none =>
    rw [remove_of_not_found]
    simp_all [isEmpty]
  · rfl

theorem swap_eq_some_iff
    {i j : Nat}
    {r' : Reel α} :
    r.swap i j = some r' ↔
      ∃ (iInside : i < r.order.length) (jInside : j < r.order.length),
        { r with order := (r.order.set i r.order[j]).set j r.order[i] } = r' := by
  by_cases iInside : i < r.order.length <;> by_cases jInside : j < r.order.length <;>
    simp [swap, iInside, jInside]

/-! ## The operations keep reels well-formed -/

namespace WellFormed

theorem nodup
    (wellFormed : r.WellFormed) :
    r.order.Nodup :=
  List.Nodup.of_map _ (AccountsFor.nodup wellFormed)

theorem empty : (empty : Reel α).WellFormed where
  nodup := List.nodup_nil
  live h mem := absurd mem List.not_mem_nil
  free_nodup := List.nodup_nil
  mem_free_iff slot := by simp [Reel.empty]

theorem clear
    (r : Reel α) :
    r.clear.WellFormed :=
  empty

/-- What the slots hold does not matter. -/
theorem sameFrame
    (wellFormed : r.WellFormed)
    {r' : Reel α}
    (same : SameFrame r r') :
    r'.WellFormed := by
  unfold WellFormed
  rw [same.order]
  exact AccountsFor.of_generations wellFormed same.free same.generations

theorem push
    (wellFormed : r.WellFormed)
    (item : α) :
    (r.push item).2.WellFormed := by
  have placed := AccountsFor.allocate wellFormed item
  have permuted : ((r.allocate item).1 :: r.order).Perm
      ((r.allocate item).2.order ++ [(r.allocate item).1]) := by
    rw [allocate_order]
    exact (List.perm_append_singleton _ _).symm
  exact (placed.perm permuted).wellFormed

theorem extend
    (wellFormed : r.WellFormed)
    (items : List α) :
    (r.extend items).WellFormed := by
  unfold Reel.extend
  induction items generalizing r with
  | nil => exact wellFormed
  | cons item items inductionHypothesis => exact inductionHypothesis (wellFormed.push item)

theorem append
    (wellFormed : r.WellFormed)
    (other : Reel α) :
    (r.append other).WellFormed :=
  wellFormed.extend _

theorem ofList
    (items : List α) :
    (Reel.ofList items).WellFormed :=
  empty.extend items

theorem replaceAll
    (r : Reel α)
    (items : List α) :
    (r.replaceAll items).WellFormed :=
  empty.extend items

theorem insert
    (wellFormed : r.WellFormed)
    {position : Nat}
    {item : α}
    {h : Handle}
    {r' : Reel α}
    (inserted : r.insert position item = some (h, r')) :
    r'.WellFormed := by
  obtain ⟨inside, rfl, rfl⟩ := insert_eq_some_iff.mp inserted
  have placed := AccountsFor.allocate wellFormed item
  exact (placed.perm (List.perm_insertIdx _ _ inside).symm).wellFormed

/-- The handle at a position comes before the others. -/
theorem accountsFor_cons
    (wellFormed : r.WellFormed)
    {position : Nat}
    {h : Handle}
    (found : r.order[position]? = some h) :
    r.AccountsFor (h :: r.order.eraseIdx position) := by
  obtain ⟨inside, rfl⟩ := List.getElem?_eq_some_iff.mp found
  exact AccountsFor.perm wellFormed (List.getElem_cons_eraseIdx_perm inside).symm

theorem splice
    (wellFormed : r.WellFormed)
    (h : Handle)
    (items : List α) :
    (r.splice h items).2.WellFormed := by
  cases located : r.position? h with
  | none => rwa [splice_of_not_located located]
  | some position =>
      rw [splice_of_located located]
      have rest := (wellFormed.accountsFor_cons (getElem?_of_position? located)).release
      have placed := rest.allocateAll items
      rw [List.eraseIdx_eq_take_drop_succ, ← List.append_assoc] at placed
      exact (placed.perm (List.perm_append_comm.append_right _)).wellFormed

theorem remove
    (wellFormed : r.WellFormed)
    (position : Nat) :
    (r.remove position).2.WellFormed := by
  cases found : r.order[position]? with
  | none => rwa [remove_of_not_found found]
  | some h =>
      rw [remove_of_found found]
      exact (wellFormed.accountsFor_cons found).release.wellFormed

theorem removeFirst
    (wellFormed : r.WellFormed) :
    r.removeFirst.2.WellFormed :=
  wellFormed.remove 0

theorem removeLast
    (wellFormed : r.WellFormed) :
    r.removeLast.2.WellFormed := by
  rw [removeLast_eq]
  exact wellFormed.remove _

theorem swap
    (wellFormed : r.WellFormed)
    {i j : Nat}
    {r' : Reel α}
    (swapped : r.swap i j = some r') :
    r'.WellFormed := by
  obtain ⟨iInside, jInside, rfl⟩ := swap_eq_some_iff.mp swapped
  exact (AccountsFor.perm wellFormed (List.set_set_perm iInside jInside).symm).wellFormed

theorem reverse
    (wellFormed : r.WellFormed) :
    r.reverse.WellFormed :=
  (AccountsFor.perm wellFormed (List.reverse_perm _).symm).wellFormed

end WellFormed

/-! ## Handles and positions -/

/-- In a well-formed reel a handle has at most one position. -/
theorem WellFormed.position?_eq_some_iff
    (wellFormed : r.WellFormed)
    {h : Handle}
    {position : Nat} :
    r.position? h = some position ↔ r.order[position]? = some h := by
  refine ⟨getElem?_of_position?, fun found => ?_⟩
  obtain ⟨inside, rfl⟩ := List.getElem?_eq_some_iff.mp found
  refine List.findIdx?_eq_some_iff_getElem.mpr ⟨inside, by simp, ?_⟩
  intro other before
  simp only [beq_iff_eq]
  intro same
  have := (wellFormed.nodup.getElem_inj_iff).mp same
  omega

theorem position?_eq_none_iff
    {h : Handle} :
    r.position? h = none ↔ h ∉ r.order := by
  simp only [position?, List.findIdx?_eq_none_iff, beq_eq_false_iff_ne, ne_eq]
  exact ⟨fun none mem => none h mem rfl, fun absent g mem same => absent (same ▸ mem)⟩

end Reel
end Darkroom
