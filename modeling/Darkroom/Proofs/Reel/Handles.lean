import Darkroom.Instances
import Darkroom.Proofs.Reel.History

/-!
# Handles over a run of edits

As long as a place is in the row, the handle given out for it has the position of the place and
reads its item.  From then on the handle is out of date: the slot may be used again, but under later
generations.  Generations have 32 bits, so this needs a bound on how often one slot is released.
-/

namespace Darkroom
namespace Reel

variable {α : Type} {r : Reel α}

namespace History

variable {w : History α}

/-! ## Histories and runs -/

/-- Pushing items one after the other extends the reel. -/
theorem pushes_reel
    (w : History α)
    (items : List α) :
    (items.foldl push w).reel = w.reel.extend items := by
  induction items generalizing w with
  | nil => rfl
  | cons item items inductionHypothesis => exact inductionHypothesis _

/-- A history edits its reel. -/
theorem next_reel
    (w : History α)
    (edit : Edit α) :
    (w.next edit).reel = edit.apply w.reel := by
  cases edit with
  | extend items => exact pushes_reel w items
  | append other => exact pushes_reel w other.intoList
  | insert position item =>
      rw [next, Edit.apply]
      cases w.reel.insert position item <;> rfl
  | splice h items =>
      rw [next, Edit.apply]
      cases w.place? h <;> rfl
  | _ => rfl

theorem mem_of_mem_swapRow
    {i j : Nat}
    {node : Node α}
    (mem : node ∈ w.swapRow i j) :
    node ∈ w.row := by
  rw [swapRow] at mem
  split at mem
  · next a b aFound bFound =>
    rcases List.mem_or_eq_of_mem_set mem with inner | rfl
    · rcases List.mem_or_eq_of_mem_set inner with there | rfl
      · exact there
      · exact List.mem_of_getElem? bFound
    · exact List.mem_of_getElem? aFound
  · exact mem

/-- A later history keeps what was given out, and no place comes back under its number. -/
structure Continues (w w' : History α) : Prop where
  /-- Numbers are never given again. -/
  born_le : w.born ≤ w'.born
  /-- An old number in the row was in the row before. -/
  old : ∀ n ∈ w'.numbers, n < w.born → n ∈ w.numbers
  /-- What was given out stays given out. -/
  issued : ∀ entry ∈ w.issued, entry ∈ w'.issued

namespace Continues

theorem refl
    (w : History α) :
    w.Continues w :=
  ⟨Nat.le_refl _, fun _ mem _ => mem, fun _ mem => mem⟩

theorem trans
    {w' w'' : History α}
    (first : w.Continues w')
    (second : w'.Continues w'') :
    w.Continues w'' where
  born_le := Nat.le_trans first.born_le second.born_le
  old n mem before :=
    first.old n (second.old n mem (Nat.lt_of_lt_of_le before first.born_le)) before
  issued entry mem := second.issued entry (first.issued entry mem)

theorem replace
    (w : History α)
    (reel : Reel α)
    (handles : List Handle)
    (position count : Nat)
    (items : List α) :
    w.Continues (w.replace reel handles position count items) where
  born_le := Nat.le_add_right _ _
  old _ mem before :=
    (mem_replace_numbers mem).resolve_right fun new =>
      Nat.not_le.mpr before (List.mem_range'_1.mp new).1
  issued _ mem := List.mem_append_left _ mem

theorem refill
    (w : History α)
    (reel : Reel α)
    (items : List (Option α)) :
    w.Continues (w.refill reel items) where
  born_le := Nat.le_refl _
  old n mem _ := by
    rw [numbers, History.refill, ← List.map_uncurry_zip_eq_zipWith, List.map_map] at mem
    obtain ⟨⟨node, item⟩, paired, rfl⟩ := List.mem_map.mp mem
    exact List.mem_map.mpr ⟨node, (List.of_mem_zip paired).1, rfl⟩
  issued _ mem := mem

/-- A row made of places of the row. -/
theorem reorder
    (w : History α)
    (reel : Reel α)
    {row : List (Node α)}
    (subset : ∀ node ∈ row, node ∈ w.row) :
    w.Continues { w with reel, row } where
  born_le := Nat.le_refl _
  old n mem _ := by
    obtain ⟨node, there, rfl⟩ := List.mem_map.mp mem
    exact List.mem_map_of_mem (subset node there)
  issued _ mem := mem

theorem pushes
    (w : History α)
    (items : List α) :
    w.Continues (items.foldl History.push w) := by
  induction items generalizing w with
  | nil => exact refl w
  | cons item items inductionHypothesis =>
      exact (replace w _ _ _ _ _).trans (inductionHypothesis _)

theorem next
    (w : History α)
    (edit : Edit α) :
    w.Continues (w.next edit) := by
  cases edit with
  | push item => exact replace ..
  | extend items => exact pushes w items
  | append other => exact pushes w other.intoList
  | insert position item =>
      rw [History.next]
      cases w.reel.insert position item with
      | none => exact refl w
      | some result => exact replace ..
  | splice h items =>
      rw [History.next]
      cases w.place? h with
      | none => exact reorder w _ fun _ mem => mem
      | some position => exact replace ..
  | remove position => exact replace ..
  | removeFirst => exact replace ..
  | removeLast => exact replace ..
  | swap i j => exact reorder w _ fun _ => mem_of_mem_swapRow
  | reverse => exact reorder w _ fun _ => List.mem_reverse.mp
  | _ => exact refill ..

theorem run
    (w : History α)
    (run : List (Edit α)) :
    w.Continues (run.foldl History.next w) := by
  induction run generalizing w with
  | nil => exact refl w
  | cons edit run inductionHypothesis => exact (next w edit).trans (inductionHypothesis _)

end Continues
end History

/-- Every run of edits has a sound history. -/
theorem history_sound
    (run : List (Edit α)) :
    (history run).Sound := by
  suffices sound : ∀ w : History α, w.Sound → (run.foldl History.next w).Sound from
    sound {} .initial
  induction run with
  | nil => exact fun w sound => sound
  | cons edit run inductionHypothesis =>
      exact fun w sound => inductionHypothesis _ (sound.next edit)

/-- The history of a run ends with the reel that the run makes. -/
theorem history_reel
    (run : List (Edit α)) :
    (history run).reel = after (run.map .edit) := by
  suffices same : ∀ w : History α,
      (run.foldl History.next w).reel = (run.map Command.edit).foldl Command.apply w.reel from
    same {}
  induction run with
  | nil => exact fun w => rfl
  | cons edit run inductionHypothesis =>
      intro w
      rw [List.foldl_cons, inductionHypothesis, History.next_reel]
      rfl

/-! ## Handles that are out of date -/

/-- A handle that reads nothing, has no position, and through which nothing is changed. -/
structure Forgot (r : Reel α) (h : Handle) : Prop where
  /-- There is no item. -/
  get : r.get? h = none
  /-- There is no position. -/
  position : r.position? h = none
  /-- Nothing is changed in place. -/
  modify : ∀ f, r.modify h f = r
  /-- Nothing is taken out. -/
  take : r.take h = (none, r)
  /-- Nothing is put back. -/
  restore : ∀ item, r.restore h item = r
  /-- Nothing is replaced. -/
  splice : ∀ items, r.splice h items = ([], r)

/-- Once the slot has moved on to another generation, the handle is out of date. -/
theorem WellFormed.forgot
    (wellFormed : r.WellFormed)
    {h : Handle}
    (dead : r.live? h = none) :
    r.Forgot h := by
  have get : r.get? h = none := by simp [get?, dead]
  have position : r.position? h = none := by
    rw [position?_eq_none_iff]
    intro mem
    obtain ⟨s, live⟩ := AccountsFor.exists_live? wellFormed mem
    rw [dead] at live
    cases live
  constructor
  case get => exact get
  case position => exact position
  case modify => intro f; simp [Reel.modify, get]
  case take => simp [Reel.take, get, put_of_dead dead]
  case restore => exact fun item => put_of_dead dead (some item)
  case splice => exact fun items => splice_of_not_located position items

namespace History.Sound

variable {w : History α}

/-- A place in the row is reached through the handle given out for it. -/
theorem located
    (sound : w.Sound)
    {h : Handle}
    {number : Nat}
    (issued : (h, number) ∈ w.issued)
    {position : Nat}
    {item : Option α}
    (found : w.row[position]? = some ⟨number, item⟩) :
    w.reel.position? h = some position ∧ w.reel.get? h = item := by
  obtain ⟨inRow, node⟩ := List.getElem?_eq_some_iff.mp found
  have inside : position < w.reel.order.length := sound.length_row ▸ inRow
  have held : w.reel.order[position] = h := by
    rw [← sound.issued_iff inside inRow, node]
    exact issued
  have order : w.reel.order[position]? = some h := by
    rw [List.getElem?_eq_getElem inside, held]
  refine ⟨sound.wellFormed.position?_eq_some_iff.mpr order, ?_⟩
  rw [WellFormed.get?_of_found order, ← sound.items_eq, items, List.getElem?_map, found]
  rfl

/-- The handle of a place that left the row is out of date, as long as 32 bits tell the
generations of its slot apart. -/
theorem forgot
    (sound : w.Sound)
    (rarely : ∀ slot, w.released.count slot < 2 ^ 32)
    {h : Handle}
    {number : Nat}
    (issued : (h, number) ∈ w.issued)
    (absent : number ∉ w.numbers) :
    w.reel.Forgot h := by
  obtain ⟨k, below, generation⟩ := sound.gone h number issued absent
  apply sound.wellFormed.forgot
  rw [Option.eq_none_iff_forall_ne_some]
  intro s live
  obtain ⟨found, same⟩ := live?_eq_some_iff.mp live
  rw [sound.counts.generation h.slot s found, generation] at same
  have wrapped := congrArg UInt32.toNat same
  rw [UInt32.toNat_ofNat', UInt32.toNat_ofNat', Nat.mod_eq_of_lt (rarely _),
    Nat.mod_eq_of_lt (Nat.lt_trans below (rarely _))] at wrapped
  omega

end History.Sound

/-- A handle follows the place it was given out for.  As long as the place is in the row, the
handle has its position and reads its item.  Once the place has left the row it stays away, and
the handle is out of date until the end of the run, however often its slot is used again. -/
theorem handle_follows_its_place
    (before later : List (Edit α))
    {h : Handle}
    {number : Nat}
    (issued : (h, number) ∈ (history before).issued)
    (rarely : ∀ slot, (history (before ++ later)).released.count slot < 2 ^ 32) :
    (∀ position item, (history (before ++ later)).row[position]? = some ⟨number, item⟩ →
      (after ((before ++ later).map .edit)).position? h = some position ∧
        (after ((before ++ later).map .edit)).get? h = item) ∧
    (number ∉ (history (before ++ later)).numbers →
      (after ((before ++ later).map .edit)).Forgot h) ∧
    (number ∉ (history before).numbers →
      number ∉ (history (before ++ later)).numbers) := by
  have sound := history_sound (before ++ later)
  have continues : (history before).Continues (history (before ++ later)) := by
    rw [history_append]
    exact .run _ later
  have still := continues.issued _ issued
  rw [← history_reel]
  refine ⟨?_, ?_, ?_⟩
  · exact fun position item found => sound.located still found
  · exact fun absent => sound.forgot rarely still absent
  · exact fun absent present =>
      absent (continues.old number present ((history_sound before).issued_lt _ issued))

/-- The first of two places is replaced by two, and the slot that it had is used again. -/
theorem handle_of_reused_slot_is_forgotten :
    let before : List (Edit Nat) := [.push 5, .push 6]
    let later : List (Edit Nat) := [.splice ⟨0, 0⟩ [7, 8]]
    (⟨0, 0⟩, 0) ∈ (history before).issued ∧
      (∀ slot, (history (before ++ later)).released.count slot < 2 ^ 32) ∧
      (⟨0, 1⟩, 2) ∈ (history (before ++ later)).issued ∧
      (after ((before ++ later).map .edit)).Forgot ⟨0, 0⟩ := by
  intro before later
  have issued : (⟨0, 0⟩, 0) ∈ (history before).issued := by decide
  have rarely : ∀ slot, (history (before ++ later)).released.count slot < 2 ^ 32 :=
    fun slot => Nat.lt_of_le_of_lt List.count_le_length (by decide)
  refine ⟨issued, rarely, by decide, ?_⟩
  exact (handle_follows_its_place before later issued rarely).2.1 (by decide)

end Reel
end Darkroom
