/-!
# Reels

A reel is an ordered list of items with stable handles.  Items live in numbered slots; the order is
a separate list of handles.  A handle names its item until the item is removed, whatever happens to
the other items: a freed slot is used again, but under a new generation, so that an old handle
never names the new item.

An item may be taken out of its place and later put back or replaced.  Meanwhile its place stays.
-/

namespace Darkroom

/-- The name of a place in one reel. -/
structure Handle where
  /-- The number of the slot. -/
  slot : Nat
  /-- How often the slot had been freed when the handle was given out. -/
  generation : UInt32
deriving DecidableEq, Repr, Inhabited

/-- One slot of a reel. -/
structure Slot (α : Type) where
  /-- How often the slot was freed. -/
  generation : UInt32
  /-- The item, unless it is taken out or the slot is free. -/
  item : Option α
deriving DecidableEq, Repr, Inhabited

/-- An ordered list of items with stable handles. -/
structure Reel (α : Type) where
  /-- The slots by number. -/
  slots : List (Slot α) := []
  /-- The handles in list order. -/
  order : List Handle := []
  /-- The free slots, the one freed last first. -/
  free : List Nat := []
deriving DecidableEq, Repr

namespace Reel

variable {α : Type}

/-- The empty reel. -/
def empty : Reel α := {}

instance : Inhabited (Reel α) := ⟨empty⟩

/-- The number of places. -/
def length (r : Reel α) : Nat :=
  r.order.length

/-- Whether there is no place. -/
def isEmpty (r : Reel α) : Bool :=
  r.order.isEmpty

/-- The slot of a handle, if the handle is not out of date. -/
def live? (r : Reel α) (h : Handle) : Option (Slot α) :=
  (r.slots[h.slot]?).filter fun s => s.generation == h.generation

/-- The item of a handle. -/
def get? (r : Reel α) (h : Handle) : Option α :=
  (r.live? h).bind Slot.item

/-- The items at their places, with a gap for each item that is taken out. -/
def places (r : Reel α) : List (Option α) :=
  r.order.map r.get?

/-- The item in a slot. -/
def itemAt? (r : Reel α) (slot : Nat) : Option α :=
  (r.slots[slot]?).bind Slot.item

/-- The items in order, read from their slots. -/
def toList (r : Reel α) : List α :=
  r.order.filterMap fun h => r.itemAt? h.slot

/-- The items in the slots of some handles, each moved out of its slot. -/
def moveOut (slots : List (Slot α)) : List Handle → List α
  | [] => []
  | h :: rest =>
      match slots[h.slot]? with
      | some ⟨generation, some item⟩ =>
          item :: moveOut (slots.set h.slot ⟨generation, none⟩) rest
      | _ => moveOut slots rest

/-- The items in order, moved out of a reel that is given up. -/
def intoList (r : Reel α) : List α :=
  moveOut r.slots r.order

/-- The slot of a handle with another item in it; an old handle changes nothing. -/
def put (r : Reel α) (h : Handle) (item : Option α) : Reel α :=
  match r.live? h with
  | some s => { r with slots := r.slots.set h.slot { s with item } }
  | none => r

/-- An item placed in a free slot, or else in a new one, and its handle. -/
def allocate (r : Reel α) (item : α) : Handle × Reel α :=
  match r.free with
  | n :: free =>
      let generation := ((r.slots[n]?).map Slot.generation).getD 0
      (⟨n, generation⟩, { r with slots := r.slots.set n ⟨generation, some item⟩, free })
  | [] => (⟨r.slots.length, 0⟩, { r with slots := r.slots ++ [⟨0, some item⟩] })

/-- Items placed one after the other, and their handles. -/
def allocateAll (r : Reel α) : List α → List Handle × Reel α
  | [] => ([], r)
  | item :: items =>
      let (h, r) := r.allocate item
      let (hs, r) := allocateAll r items
      (h :: hs, r)

/-- The slot of a handle emptied and set free. -/
def release (r : Reel α) (h : Handle) : Reel α :=
  match r.live? h with
  | some s =>
      { r with
        slots := r.slots.set h.slot ⟨s.generation + 1, none⟩
        free := h.slot :: r.free }
  | none => r

/-- An item at the end, and its handle. -/
def push (r : Reel α) (item : α) : Handle × Reel α :=
  let (h, r) := r.allocate item
  (h, { r with order := r.order ++ [h] })

/-- Items at the end. -/
def extend (r : Reel α) (items : List α) : Reel α :=
  items.foldl (fun r item => (r.push item).2) r

/-- The reel of a list of items. -/
def ofList (items : List α) : Reel α :=
  extend empty items

/-- The items of another reel, which is given up, at the end. -/
def append (r other : Reel α) : Reel α :=
  r.extend other.intoList

/-- An item before a position, and its handle; a position beyond the end is refused. -/
def insert (r : Reel α) (position : Nat) (item : α) : Option (Handle × Reel α) :=
  if r.length < position then none
  else
    let (h, r) := r.allocate item
    some (h, { r with order := r.order.insertIdx position h })

/-- The handle at a position. -/
def handleAt? (r : Reel α) (position : Nat) : Option Handle :=
  r.order[position]?

/-- The position of a handle. -/
def position? (r : Reel α) (h : Handle) : Option Nat :=
  r.order.findIdx? (· == h)

/-- The item at a position. -/
def at? (r : Reel α) (position : Nat) : Option α :=
  (r.handleAt? position).bind r.get?

/-- The first item. -/
def first? (r : Reel α) : Option α :=
  r.at? 0

/-- The last item. -/
def last? (r : Reel α) : Option α :=
  if r.isEmpty then none else r.at? (r.length - 1)

/-- The position an index means; a negative one counts from the end. -/
def resolve? (r : Reel α) (index : Int) : Option Nat :=
  let position := if index < 0 then (r.length : Int) + index else index
  if 0 ≤ position ∧ position < r.length then some position.toNat else none

/-- The item of a handle changed. -/
def modify (r : Reel α) (h : Handle) (f : α → α) : Reel α :=
  match r.get? h with
  | some item => r.put h (some (f item))
  | none => r

/-- The item at a position changed. -/
def modifyAt (r : Reel α) (position : Nat) (f : α → α) : Reel α :=
  match r.handleAt? position with
  | some h => r.modify h f
  | none => r

/-- The position of the handle that uses a slot; of several, the last one. -/
def rank? (r : Reel α) (slot : Nat) : Option Nat :=
  (r.order.map Handle.slot).zipIdx.reverse.lookup slot

/-- The slots in use that hold an item, sorted by the positions of their handles. -/
def occupied (r : Reel α) : List Nat :=
  ((List.range r.slots.length).filter fun slot =>
    (r.rank? slot).isSome && (r.itemAt? slot).isSome).mergeSort fun a b =>
      (r.rank? a).getD 0 ≤ (r.rank? b).getD 0

/-- The item in a slot changed. -/
def modifySlot (r : Reel α) (slot : Nat) (f : α → α) : Reel α :=
  { r with slots := r.slots.modify slot fun s => { s with item := s.item.map f } }

/-- Every item changed in order, with its number among the items. -/
def updateAll (r : Reel α) (f : Nat → α → α) : Reel α :=
  r.occupied.zipIdx.foldl (fun r (slot, n) => r.modifySlot slot (f n)) r

/-- An item taken out of its place, which stays. -/
def take (r : Reel α) (h : Handle) : Option α × Reel α :=
  (r.get? h, r.put h none)

/-- An item put into the place of a handle. -/
def restore (r : Reel α) (h : Handle) (item : α) : Reel α :=
  r.put h (some item)

/-- The place of a handle replaced by new items at the same position, and their handles.  A handle
that is not in the order changes nothing. -/
def splice (r : Reel α) (h : Handle) (items : List α) : List Handle × Reel α :=
  match r.position? h with
  | none => ([], r)
  | some position =>
      let (hs, r) := (r.release h).allocateAll items
      (hs, { r with order := r.order.take position ++ hs ++ r.order.drop (position + 1) })

/-- The place at a position removed, and its item. -/
def remove (r : Reel α) (position : Nat) : Option α × Reel α :=
  match r.handleAt? position with
  | none => (none, r)
  | some h => (r.get? h, release { r with order := r.order.eraseIdx position } h)

/-- The first place removed, and its item. -/
def removeFirst (r : Reel α) : Option α × Reel α :=
  r.remove 0

/-- The last place removed, and its item. -/
def removeLast (r : Reel α) : Option α × Reel α :=
  if r.isEmpty then (none, r) else r.remove (r.length - 1)

/-- Two positions exchanged; a position outside the list is refused. -/
def swap (r : Reel α) (i j : Nat) : Option (Reel α) :=
  match r.order[i]?, r.order[j]? with
  | some a, some b => some { r with order := (r.order.set i b).set j a }
  | _, _ => none

/-- The order reversed. -/
def reverse (r : Reel α) : Reel α :=
  { r with order := r.order.reverse }

/-- Everything dropped. -/
def clear (_ : Reel α) : Reel α :=
  empty

/-- Everything dropped, and new items in its place. -/
def replaceAll (r : Reel α) (items : List α) : Reel α :=
  r.clear.extend items

/-- Copies of the items at the positions; none when a position has no item. -/
def copies? (r : Reel α) (positions : List Nat) : Option (List α) :=
  positions.mapM r.at?

end Reel
end Darkroom
