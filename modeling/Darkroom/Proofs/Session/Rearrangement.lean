import Darkroom.Proofs.Operators.Rearrangement
import Darkroom.Proofs.Operators.Survival
import Darkroom.Proofs.Session.Failure
import Darkroom.Proofs.Settings

/-!
# Lists rearranged

The operators that reverse the list, exchange two images, move the last one or add copies make up
no image and lose none.  Before they decide they bring every image in line with the settings, and
what they report changes nothing but that.
-/

namespace Darkroom

/-- The plan puts a list in place that holds the given items in some order, and in their old order
when the operator fails. -/
def ListPlan.Reorders (items : List Image) : ListPlan → Prop
  | .rearrange images => images.Whole ∧ images.toList.Perm items
  | .refuse images _ => images.Whole ∧ images.toList = items
  | _ => False

namespace ListOperator

open Plans

variable (view : View) {images : Reel Image} (inv : Invocation)

theorem reverse_reorders
    (whole : images.Whole) :
    Plans (ListPlan.Reorders images.toList) (reverse view images inv) :=
  ok ⟨whole.reverse, whole.reverse_toList ▸ images.toList.reverse_perm⟩

theorem swap_reorders
    (whole : images.Whole) :
    Plans (ListPlan.Reorders images.toList) (swap view images inv) := by
  obtain ⟨i, j, decided⟩ | ⟨fault, decided⟩ := swap_cases images inv
  · rw [decided view images rfl]
    exact ok ⟨whole.exchange i j, whole.exchange_toList i j ▸ Reel.exchanged_perm i j _⟩
  · rw [decided view images rfl]
    exact error fault

theorem insert_reorders
    (whole : images.Whole)
    (nonempty : images.isEmpty = false) :
    Plans (ListPlan.Reorders images.toList) (insert view images inv) := by
  cases read : insertIndex inv with
  | error fault =>
      rw [insert_of_unread view read]
      exact error fault
  | ok index =>
      by_cases outside : insertPlace images.length index.toInt < 0 ∨
          images.length ≤ insertPlace images.length index.toInt
      · obtain ⟨kept, decided, keptWhole, items⟩ :=
          insert_of_outside view whole nonempty read outside
        rw [decided]
        exact ok ⟨keptWhole, items⟩
      · obtain ⟨position, placed⟩ := Int.eq_ofNat_of_zero_le
          (Int.not_lt.mp fun negative => outside (.inl negative))
        obtain ⟨moved, decided, movedWhole, movedLast⟩ :=
          insert_of_inside view whole read placed (by omega)
        rw [decided]
        exact ok ⟨movedWhole, movedLast.perm⟩

end ListOperator

namespace Session

variable {σ : Type} (engine : Engine σ)

/-! ## Decisions carried out -/

section Decided

variable {s : Session σ} {option : String} {first? second? : Option String}
  {operator : ListOperator}
  (named : ListOperator.named? (Invocation.of option first? second?).name = some operator)
  (nonempty : s.images.isEmpty = false)

include named nonempty

theorem applyToList_of_nonempty :
    s.applyToList engine option first? second? =
      settle (Invocation.of option first? second?)
        (match operator (s.syncAll.view engine) s.syncAll.images
            (Invocation.of option first? second?) with
          | .ok plan => s.syncAll.performOnList engine plan
          | .error fault => (.error fault, s.syncAll)) := by
  rw [applyToList_eq]
  dsimp only
  rw [named]
  exact congrArg (settle _) (if_neg (by simp [nonempty]))

theorem applyToList_of_rearrange
    {images : Reel Image}
    (decided : operator (s.syncAll.view engine) s.syncAll.images
      (Invocation.of option first? second?) = .ok (.rearrange images)) :
    s.applyToList engine option first? second? = (none, { s with images }) := by
  rw [applyToList_of_nonempty engine named nonempty, decided]
  rfl

theorem applyToList_of_refuse
    {images : Reel Image}
    {fault : Fault}
    (decided : operator (s.syncAll.view engine) s.syncAll.images
      (Invocation.of option first? second?) = .ok (.refuse images fault)) :
    s.applyToList engine option first? second? =
      (none, { s.report fault option with images }) := by
  have mild : fault.isFatal = false :=
    (ListOperator.named?_survives _ _ _ named).planned _ decided
  rw [applyToList_of_nonempty engine named nonempty, decided]
  exact Prod.ext (if_neg (by simp [mild])) rfl

theorem applyToList_of_error
    {fault : Fault}
    (decided : operator (s.syncAll.view engine) s.syncAll.images
      (Invocation.of option first? second?) = .error fault) :
    s.applyToList engine option first? second? =
      (none, { s.report fault option with images := s.syncAll.images }) := by
  have mild : fault.isFatal = false :=
    (ListOperator.named?_survives _ _ _ named).decided _ decided
  rw [applyToList_of_nonempty engine named nonempty, decided]
  exact Prod.ext (if_neg (by simp [mild])) rfl

end Decided

/-! ## Nothing lost and nothing added -/

/-- The run goes on with the images in some order, each in line with the settings. -/
structure Reordered (option : String) (s : Session σ) (ended : Option Fatal × Session σ) :
    Prop where
  /-- The run goes on. -/
  goesOn : ended.1 = none
  /-- No place is left empty. -/
  whole : ended.2.images.Whole
  /-- Nothing is lost and nothing is added. -/
  perm : ended.2.images.toList.Perm s.syncedImages
  /-- Nothing else has changed, or a fault was reported and the images are in the old order. -/
  onlyImages : ended.2 = { s with images := ended.2.images } ∨
    ∃ fault, ended.2 = { s.report fault option with images := ended.2.images } ∧
      ended.2.images.toList = s.syncedImages

theorem reordered_of_plans
    {s : Session σ}
    {option : String}
    {first? second? : Option String}
    {operator : ListOperator}
    (named : ListOperator.named? (Invocation.of option first? second?).name = some operator)
    (whole : s.images.Whole)
    (nonempty : s.images.isEmpty = false)
    (reorders : Plans (ListPlan.Reorders s.syncAll.images.toList)
      (operator (s.syncAll.view engine) s.syncAll.images (Invocation.of option first? second?))) :
    Reordered option s (s.applyToList engine option first? second?) := by
  rw [syncAll_toList whole] at reorders
  cases decided : operator (s.syncAll.view engine) s.syncAll.images
      (Invocation.of option first? second?) with
  | error fault =>
      rw [applyToList_of_error engine named nonempty decided]
      exact ⟨rfl, syncAll_whole whole, .of_eq (syncAll_toList whole),
        .inr ⟨fault, rfl, syncAll_toList whole⟩⟩
  | ok plan =>
      have holds := reorders plan decided
      cases plan with
      | rearrange images =>
          rw [applyToList_of_rearrange engine named nonempty decided]
          exact ⟨rfl, holds.1, holds.2, .inl rfl⟩
      | refuse images fault =>
          rw [applyToList_of_refuse engine named nonempty decided]
          exact ⟨rfl, holds.1, .of_eq holds.2, .inr ⟨fault, rfl, holds.2⟩⟩
      | _ => exact holds.elim

/-! ## The last image moved to a position -/

section Moved

variable {s : Session σ} {option : String} {first? second? : Option String} {index : Int64}
  (named : ListOperator.named? (Invocation.of option first? second?).name =
    some ListOperator.insert)
  (whole : s.images.Whole)
  (read : ListOperator.insertIndex (Invocation.of option first? second?) = .ok index)

include named whole read

theorem applyToList_of_inside
    {position : Nat}
    (place : ListOperator.insertPlace s.images.length index.toInt = position)
    (inside : position < s.images.length) :
    ∃ moved, s.applyToList engine option first? second? = (none, { s with images := moved }) ∧
      moved.Whole ∧ ListOperator.MovedLast position s.syncedImages moved.toList := by
  have nonempty := Reel.isEmpty_eq_false_iff.mpr (Nat.zero_lt_of_lt inside)
  rw [← s.syncAll_length] at place inside
  obtain ⟨moved, decided, movedWhole, movedLast⟩ :=
    ListOperator.insert_of_inside (s.syncAll.view engine) (syncAll_whole whole) read place inside
  exact ⟨moved, applyToList_of_rearrange engine named nonempty decided, movedWhole,
    syncAll_toList whole ▸ movedLast⟩

theorem applyToList_of_outside
    (nonempty : s.images.isEmpty = false)
    (outside : ListOperator.insertPlace s.images.length index.toInt < 0 ∨
      s.images.length ≤ ListOperator.insertPlace s.images.length index.toInt) :
    ∃ kept, s.applyToList engine option first? second? =
        (none, { s.report (.noSuchImage (toString index.toInt)) option with images := kept }) ∧
      kept.Whole ∧ kept.toList = s.syncedImages := by
  rw [← s.syncAll_length] at outside
  obtain ⟨kept, decided, keptWhole, items⟩ :=
    ListOperator.insert_of_outside (s.syncAll.view engine) (syncAll_whole whole)
      (s.syncAll_isEmpty.trans nonempty) read outside
  exact ⟨kept, applyToList_of_refuse engine named nonempty decided, keptWhole,
    items.trans (syncAll_toList whole)⟩

end Moved

/-! ## The list reversed and two images exchanged -/

theorem applyToList_reverse
    {s : Session σ}
    (whole : s.images.Whole)
    (nonempty : s.images.isEmpty = false)
    (first? second? : Option String) :
    (s.applyToList engine "-reverse" first? second?).2.images.toList =
      s.syncedImages.reverse := by
  have decided : ListOperator.reverse (s.syncAll.view engine) s.syncAll.images
      (Invocation.of "-reverse" first? second?) = .ok (.rearrange s.syncAll.images.reverse) := rfl
  rw [applyToList_of_rearrange engine rfl nonempty decided]
  exact (syncAll_whole whole).reverse_toList.trans (congrArg _ (syncAll_toList whole))

theorem applyToList_of_resolved
    {s : Session σ}
    {option : String}
    {first? second? : Option String}
    (named : ListOperator.named? (Invocation.of option first? second?).name =
      some ListOperator.swap)
    (whole : s.images.Whole)
    (nonempty : s.images.isEmpty = false)
    {p q : Int64}
    {i j : Nat}
    (read : ListOperator.swapIndexes (Invocation.of option first? second?) = .ok (p, q))
    (first : s.images.resolve? p.toInt = some i)
    (second : s.images.resolve? q.toInt = some j) :
    (s.applyToList engine option first? second?).2.images.toList =
      Reel.exchanged i j s.syncedImages := by
  rw [← ListOperator.resolve?_congr s.syncAll_length] at first second
  rw [applyToList_of_rearrange engine named nonempty
    (ListOperator.swap_of_resolved (s.syncAll.view engine) read first second)]
  exact ((syncAll_whole whole).exchange_toList i j).trans (congrArg _ (syncAll_toList whole))

theorem syncedImages_sync
    (s : Session σ) :
    s.syncedImages.map s.settings.image.sync = s.syncedImages := by
  rw [syncedImages, List.map_map]
  exact List.map_congr_left fun image _ => s.settings.image.sync_sync image

/-- What is exchanged depends on the number of images only.  A fault exchanges nothing. -/
theorem swap_exchanges
    {s : Session σ}
    {option : String}
    {first? second? : Option String}
    (named : ListOperator.named? (Invocation.of option first? second?).name =
      some ListOperator.swap)
    (nonempty : s.images.isEmpty = false) :
    ∃ i j, ∀ other : Session σ, other.images.length = s.images.length →
      let after := (other.applyToList engine option first? second?).2
      after.images = other.syncAll.images.exchange i j ∧ after.settings = other.settings := by
  have filled (other : Session σ) (length : other.images.length = s.images.length) :
      other.images.isEmpty = false :=
    Reel.isEmpty_eq_false_iff.mpr (length ▸ Reel.isEmpty_eq_false_iff.mp nonempty)
  obtain ⟨i, j, decided⟩ | ⟨fault, decided⟩ :=
    ListOperator.swap_cases s.images (Invocation.of option first? second?)
  · refine ⟨i, j, fun other length => ?_⟩
    dsimp only
    rw [applyToList_of_rearrange engine named (filled other length)
      (decided _ _ (other.syncAll_length.trans length))]
    exact ⟨rfl, rfl⟩
  · refine ⟨0, 0, fun other length => ?_⟩
    dsimp only
    rw [applyToList_of_error engine named (filled other length)
      (decided _ _ (other.syncAll_length.trans length))]
    exact ⟨(Reel.exchange_self _ 0).symm, rfl⟩

/-- Exchanging the same two images twice restores the order. -/
theorem swap_twice
    {s : Session σ}
    {option : String}
    {first? second? : Option String}
    (named : ListOperator.named? (Invocation.of option first? second?).name =
      some ListOperator.swap)
    (whole : s.images.Whole)
    (nonempty : s.images.isEmpty = false) :
    let once := (s.applyToList engine option first? second?).2
    let twice := (once.applyToList engine option first? second?).2
    twice.images.order = s.images.order ∧ twice.images.toList = s.syncedImages := by
  intro once twice
  obtain ⟨i, j, exchanges⟩ := swap_exchanges engine named nonempty
  obtain ⟨first, settings⟩ := exchanges s rfl
  have order : once.images.order = Reel.exchanged i j s.images.order := by
    rw [show once.images = _ from first, Reel.exchange, syncAll_order]
  have items : once.images.toList = Reel.exchanged i j s.syncedImages := by
    rw [show once.images = _ from first, (syncAll_whole whole).exchange_toList,
      syncAll_toList whole]
  have still : once.images.Whole := by
    rw [show once.images = _ from first]
    exact (syncAll_whole whole).exchange i j
  have second : twice.images = once.syncAll.images.exchange i j := by
    refine (exchanges once ?_).1
    rw [Reel.length, order, Reel.length_exchanged, Reel.length]
  -- The images are in line with the settings before the second exchange, so that only the order
  -- is left to compare.
  constructor
  · rw [second, Reel.exchange, syncAll_order, order, Reel.exchanged_exchanged]
  · calc twice.images.toList
        = Reel.exchanged i j once.syncedImages := by
          rw [second, (syncAll_whole still).exchange_toList, syncAll_toList still]
      _ = Reel.exchanged i j (Reel.exchanged i j s.syncedImages) := by
          rw [syncedImages, items, show once.settings = s.settings from settings,
            ← Reel.exchanged_map, syncedImages_sync]
      _ = s.syncedImages := Reel.exchanged_exchanged i j _

/-! ## Copies added -/

/-- The run goes on.  Copies that are asked for stand behind the images, as often as they are asked
for, and nothing else has changed; copies that are asked for in no right way are not made, and a
fault is reported. -/
structure Duplicated (first? : Option String) (s : Session σ)
    (ended : Option Fatal × Session σ) : Prop where
  /-- The run goes on. -/
  goesOn : ended.1 = none
  /-- No place is left empty. -/
  whole : ended.2.images.Whole
  /-- Copies that are asked for are added, each time in the order they are asked for. -/
  asked : ∀ text count positions, first? = some text →
    ListOperator.Asks s.images.length text count positions →
      ∃ copies, copies.map some = positions.map (s.syncedImages[·]?) ∧
        ended.2 = { s with images := ended.2.images } ∧
        ended.2.images.toList =
          s.syncedImages ++ (List.replicate count.toInt.toNat copies).flatten
  /-- Otherwise a fault is reported and the images stay. -/
  unasked : (∀ text count positions, first? = some text →
      ¬ ListOperator.Asks s.images.length text count positions) →
    ∃ fault, ended.2 = { s.report fault "-duplicate" with images := ended.2.images } ∧
      ended.2.images.order = s.images.order ∧
      ended.2.images.toList = s.syncedImages

theorem applyToList_of_asked
    {s : Session σ}
    (whole : s.images.Whole)
    (nonempty : s.images.isEmpty = false)
    {text : String}
    (second? : Option String)
    {count : Int64}
    {positions : List Nat}
    (asked : ListOperator.Asks s.images.length text count positions) :
    ∃ copies extended, copies.map some = positions.map (s.syncedImages[·]?) ∧
      s.applyToList engine "-duplicate" (some text) second? =
        (none, { s with images := extended }) ∧
      extended.Whole ∧
      extended.toList =
        s.syncedImages ++ (List.replicate count.toInt.toNat copies).flatten := by
  rw [← s.syncAll_length] at asked
  rw [← syncAll_toList whole]
  obtain ⟨copies, extended, picked, decided, extension⟩ :=
    ListOperator.duplicate_of_asked (s.syncAll.view engine) (syncAll_whole whole)
      (s.syncAll_isEmpty.trans nonempty)
      (show (Invocation.of "-duplicate" (some text) second?).normal = true from rfl) rfl asked
  exact ⟨copies, extended, picked,
    applyToList_of_rearrange engine rfl nonempty decided, extension⟩

theorem applyToList_of_unasked
    {s : Session σ}
    (nonempty : s.images.isEmpty = false)
    {first? : Option String}
    (second? : Option String)
    (unasked : ∀ text count positions, first? = some text →
      ¬ ListOperator.Asks s.images.length text count positions) :
    ∃ fault, s.applyToList engine "-duplicate" first? second? =
      (none, { s.report fault "-duplicate" with images := s.syncAll.images }) := by
  rw [← s.syncAll_length] at unasked
  obtain ⟨fault, decided⟩ :=
    ListOperator.duplicate_of_unasked (s.syncAll.view engine)
      (show (Invocation.of "-duplicate" first? second?).normal = true from rfl) unasked
  exact ⟨fault, applyToList_of_error engine rfl nonempty decided⟩

theorem duplicated
    {s : Session σ}
    (whole : s.images.Whole)
    (nonempty : s.images.isEmpty = false)
    (first? second? : Option String) :
    Duplicated first? s (s.applyToList engine "-duplicate" first? second?) := by
  by_cases asked : ∃ text count positions, first? = some text ∧
      ListOperator.Asks s.images.length text count positions
  · obtain ⟨text, count, positions, rfl, asked⟩ := asked
    obtain ⟨copies, extended, picked, ended, extendedWhole, items⟩ :=
      applyToList_of_asked engine whole nonempty second? asked
    refine ⟨ended ▸ rfl, ended ▸ extendedWhole, ?_,
      fun unasked => absurd asked (unasked text count positions rfl)⟩
    rintro text count positions ⟨⟩ asked
    obtain ⟨copies, extended, picked, ended, extendedWhole, items⟩ :=
      applyToList_of_asked engine whole nonempty second? asked
    rw [ended]
    exact ⟨copies, picked, rfl, items⟩
  · have unasked : ∀ text count positions, first? = some text →
        ¬ ListOperator.Asks s.images.length text count positions :=
      fun text count positions given holds => asked ⟨text, count, positions, given, holds⟩
    obtain ⟨fault, ended⟩ := applyToList_of_unasked engine nonempty second? unasked
    rw [ended]
    exact
      { goesOn := rfl
        whole := syncAll_whole whole
        asked := fun text count positions given holds =>
          absurd holds (unasked text count positions given)
        unasked := fun _ => ⟨fault, rfl, s.syncAll_order, syncAll_toList whole⟩ }

/-! ## The operators as options -/

/-- Reversing, exchanging two images and moving the last one keep every image once, and a fault that
is reported keeps the order.  Otherwise the order is the one that was asked for, and to exchange the
same images twice restores the old one.  Copies stand behind the images. -/
theorem rearranging_conserves_images
    {s : Session σ}
    (whole : s.images.Whole)
    (nonempty : s.images.isEmpty = false)
    (first? second? : Option String) :
    let applied (option : String) (s : Session σ) := s.applyToList engine option first? second?
    (∀ option ∈ ["-reverse", "-swap", "+swap", "-insert", "+insert"],
        Reordered option s (applied option s)) ∧
      ((applied "-reverse" s).2.images.toList = s.syncedImages.reverse ∧
        (∀ option ∈ ["-swap", "+swap"], ∀ p q i j,
          ListOperator.swapIndexes (.of option first? second?) = .ok (p, q) →
          s.images.resolve? p.toInt = some i → s.images.resolve? q.toInt = some j →
          (applied option s).2.images.toList = Reel.exchanged i j s.syncedImages) ∧
        ∀ option ∈ ["-insert", "+insert"], ∀ index, ∀ position : Nat,
          ListOperator.insertIndex (.of option first? second?) = .ok index →
          ListOperator.insertPlace s.images.length index.toInt = position →
          position < s.images.length →
          ListOperator.MovedLast position s.syncedImages (applied option s).2.images.toList) ∧
      (∀ option ∈ ["-swap", "+swap"],
        let twice := (applied option (applied option s).2).2
        twice.images.order = s.images.order ∧ twice.images.toList = s.syncedImages) ∧
      Duplicated first? s (applied "-duplicate" s) := by
  intro applied
  have synced := syncAll_whole whole
  have filled : s.syncAll.images.isEmpty = false := s.syncAll_isEmpty.trans nonempty
  have moved {option : String} {index : Int64} {position : Nat}
      (named : ListOperator.named? (Invocation.of option first? second?).name =
        some ListOperator.insert)
      (read : ListOperator.insertIndex (.of option first? second?) = .ok index)
      (place : ListOperator.insertPlace s.images.length index.toInt = position)
      (inside : position < s.images.length) :
      ListOperator.MovedLast position s.syncedImages (applied option s).2.images.toList := by
    obtain ⟨images, done, -, movedLast⟩ :=
      applyToList_of_inside engine named whole read place inside
    rwa [show applied option s = _ from done]
  simp only [List.forall_mem_cons, List.not_mem_nil, false_imp_iff, implies_true, and_true]
  refine ⟨⟨?reverse, ?swap, ?swapLast, ?insert, ?insertFirst⟩, ⟨?reversed, ?exchanged, ?moved⟩,
    ?twice, duplicated engine whole nonempty first? second?⟩
  case reverse =>
    exact reordered_of_plans engine rfl whole nonempty (ListOperator.reverse_reorders _ _ synced)
  case swap | swapLast =>
    exact reordered_of_plans engine rfl whole nonempty (ListOperator.swap_reorders _ _ synced)
  case insert | insertFirst =>
    exact reordered_of_plans engine rfl whole nonempty
      (ListOperator.insert_reorders _ _ synced filled)
  case reversed => exact applyToList_reverse engine whole nonempty first? second?
  case exchanged =>
    exact ⟨fun p q i j => applyToList_of_resolved engine rfl whole nonempty,
      fun p q i j => applyToList_of_resolved engine rfl whole nonempty⟩
  case moved => exact ⟨fun index position => moved rfl, fun index position => moved rfl⟩
  case twice => exact ⟨swap_twice engine rfl whole nonempty, swap_twice engine rfl whole nonempty⟩

/-- Three images are reversed, the last two are exchanged and exchanged again, the last one is moved
to the front, and the second is copied twice.  Two numbers are no place for the last image, and
nothing is lost when it is asked to move there. -/
theorem rearranged_by_two_numbers :
    let named (name : String) : Image := { (default : Image) with filename := name }
    let s : Session Nat :=
      { images := .ofList [named "a", named "b", named "c"]
        settings := .initial
        world := 0 }
    let applied (option : String) (s : Session Nat) :=
      (s.applyToList parting option (some "2,1") none).2
    let names (s : Session Nat) := s.images.toList.map Image.filename
    s.images.Whole ∧ s.images.isEmpty = false ∧
      ListOperator.Asks s.images.length "2,1" 2 [1] ∧
      names (applied "-reverse" s) = ["c", "b", "a"] ∧
      names (applied "+swap" s) = ["a", "c", "b"] ∧
      names (applied "+swap" (applied "+swap" s)) = ["a", "b", "c"] ∧
      names (applied "+insert" s) = ["c", "a", "b"] ∧
      names (applied "-duplicate" s) = ["a", "b", "c", "b", "b"] ∧
      (names (applied "-insert" s)).Perm ["a", "b", "c"] := by
  intro named s applied names
  have whole : s.images.Whole := .ofList _
  have asked : ListOperator.Asks s.images.length "2,1" 2 [1] :=
    ListOperator.copiesAsked_eq_ok_iff.mp (by decide)
  obtain ⟨reordered, ⟨reversed, exchanged, moved⟩, twice, copied⟩ :=
    rearranging_conserves_images parting whole rfl (some "2,1") none
  have lastTwo := exchanged "+swap" (by decide) (-1) (-2) 2 1 rfl rfl rfl
  have third : s.syncedImages.getLast? = some (s.settings.image.sync (named "c")) := rfl
  have front := (moved "+insert" (by decide) 0 0 rfl rfl (by decide)).eq_insertIdx third
  have restored := (twice "+swap" (by decide)).2
  have inserted := (reordered "-insert" (by decide)).perm
  obtain ⟨copies, picked, -, items⟩ := copied.asked _ _ _ rfl asked
  obtain rfl : copies = [s.settings.image.sync (named "b")] :=
    List.map_injective_iff.mpr (Option.some_injective _) (picked.trans (by rfl))
  refine ⟨whole, rfl, asked, ?_, ?_, ?_, ?_, ?_, inserted.map Image.filename⟩
  · exact congrArg (List.map Image.filename) reversed
  · exact congrArg (List.map Image.filename) lastTwo
  · exact congrArg (List.map Image.filename) restored
  · exact congrArg (List.map Image.filename) front
  · exact congrArg (List.map Image.filename) items

/-! ## The index of the last image -/

/-- The last image is moved to the position that an index means, but a negative index counts from
the end of the others: it moves the image one position before the one it means, and one that means
the first position is refused. -/
theorem insert_counts_among_the_others
    {s : Session σ}
    (whole : s.images.Whole)
    {text : String}
    {index : Int64}
    (read : ListOperator.integer text = .ok index)
    {position : Nat}
    (resolved : s.images.resolve? index.toInt = some position)
    (second? : Option String) :
    let ended := s.applyToList engine "-insert" (some text) second?
    let after := ended.2
    ended.1 = none ∧ after.images.Whole ∧
      (0 ≤ index.toInt →
        after = { s with images := after.images } ∧
          ListOperator.MovedLast position s.syncedImages after.images.toList) ∧
      (index.toInt < 0 → ∀ before, position = before + 1 →
        after = { s with images := after.images } ∧
          ListOperator.MovedLast before s.syncedImages after.images.toList) ∧
      (index.toInt < 0 → position = 0 →
        after = { s.report (.noSuchImage (toString index.toInt)) "-insert" with
            images := after.images } ∧
          after.images.toList = s.syncedImages) := by
  obtain ⟨inside, meant⟩ := Reel.resolve?_eq_some_iff.mp resolved
  rw [Reel.length_places] at inside meant
  have asked : ListOperator.insertIndex (Invocation.of "-insert" (some text) second?) = .ok index :=
    read
  dsimp only
  by_cases negative : index.toInt < 0
  -- The place is counted without the last image, the position with it.
  · have place : ListOperator.insertPlace s.images.length index.toInt = (position : Int) - 1 := by
      rw [ListOperator.insertPlace, if_pos negative]
      omega
    cases position with
    | zero =>
        obtain ⟨kept, refused, keptWhole, items⟩ :=
          applyToList_of_outside engine rfl whole asked (Reel.isEmpty_eq_false_iff.mpr inside)
            (.inl (by omega))
        rw [refused]
        exact ⟨rfl, keptWhole, fun nonnegative => absurd negative (Int.not_lt.mpr nonnegative),
          fun _ _ => nofun, fun _ _ => ⟨rfl, items⟩⟩
    | succ before =>
        have atBefore : ListOperator.insertPlace s.images.length index.toInt = before := by
          rw [place]
          omega
        obtain ⟨moved, done, movedWhole, movedLast⟩ :=
          applyToList_of_inside engine rfl whole asked atBefore (Nat.lt_of_succ_lt inside)
        rw [done]
        refine ⟨rfl, movedWhole, fun nonnegative => absurd negative (Int.not_lt.mpr nonnegative),
          ?_, fun _ => nofun⟩
        rintro - before ⟨⟩
        exact ⟨rfl, movedLast⟩
  · have place : ListOperator.insertPlace s.images.length index.toInt = position := by
      rw [ListOperator.insertPlace, if_neg negative]
      omega
    obtain ⟨moved, done, movedWhole, movedLast⟩ :=
      applyToList_of_inside engine rfl whole asked place inside
    rw [done]
    exact ⟨rfl, movedWhole, fun _ => ⟨rfl, movedLast⟩, fun below => absurd below negative,
      fun below => absurd below negative⟩

/-- The third of three images is moved to the second position by `1`, and by `-1` as well, which
means the third; `-3` means the first and is refused. -/
theorem insert_third_of_three :
    let named (name : String) : Image := { (default : Image) with filename := name }
    let s : Session Nat :=
      { images := .ofList [named "a", named "b", named "c"]
        settings := .initial
        world := 0 }
    let after (text : String) := (s.applyToList parting "-insert" (some text) none).2
    let names (s : Session Nat) := s.images.toList.map Image.filename
    s.images.Whole ∧
      (ListOperator.integer "1" = .ok 1 ∧ s.images.resolve? 1 = some 1 ∧
        names (after "1") = ["a", "c", "b"]) ∧
      (ListOperator.integer "-1" = .ok (-1) ∧ s.images.resolve? (-1) = some 2 ∧
        names (after "-1") = ["a", "c", "b"]) ∧
      (ListOperator.integer "-3" = .ok (-3) ∧ s.images.resolve? (-3) = some 0 ∧
        names (after "-3") = ["a", "b", "c"]) := by
  intro named s after names
  have whole : s.images.Whole := .ofList _
  have readSecond : ListOperator.integer "1" = .ok 1 := by decide
  have readLast : ListOperator.integer "-1" = .ok (-1) := by decide
  have readFirst : ListOperator.integer "-3" = .ok (-3) := by decide
  have second := (insert_counts_among_the_others parting whole readSecond
    (show s.images.resolve? 1 = some 1 from rfl) none).2.2.1 (by decide)
  have last := (insert_counts_among_the_others parting whole readLast
    (show s.images.resolve? (-1) = some 2 from rfl) none).2.2.2.1 (by decide) 1 rfl
  have first := (insert_counts_among_the_others parting whole readFirst
    (show s.images.resolve? (-3) = some 0 from rfl) none).2.2.2.2 (by decide) rfl
  have third : s.syncedImages.getLast? = some (s.settings.image.sync (named "c")) := rfl
  refine ⟨whole, ⟨readSecond, rfl, ?_⟩, ⟨readLast, rfl, ?_⟩, ⟨readFirst, rfl, ?_⟩⟩
  · exact congrArg (List.map Image.filename) (second.2.eq_insertIdx third)
  · exact congrArg (List.map Image.filename) (last.2.eq_insertIdx third)
  · exact congrArg (List.map Image.filename) first.2

/-- The index `-1` means the last position, and the last image is moved away from it. -/
theorem insert_at_last_moves_away :
    let named (name : String) : Image := { (default : Image) with filename := name }
    let s : Session Nat :=
      { images := .ofList [named "a", named "b", named "c"]
        settings := .initial
        world := 0 }
    let after := (s.applyToList parting "-insert" (some "-1") none).2
    ListOperator.integer "-1" = .ok (-1) ∧ s.images.resolve? (-1) = some 2 ∧
      after.images.toList.map Image.filename = ["a", "c", "b"] ∧
      ¬ ListOperator.MovedLast 2 s.syncedImages after.images.toList := by
  intro named s after
  have whole : s.images.Whole := .ofList _
  have read : ListOperator.integer "-1" = .ok (-1) := by decide
  have asked : ListOperator.insertIndex (Invocation.of "-insert" (some "-1") none) = .ok (-1) :=
    read
  have place : ListOperator.insertPlace s.images.length (-1 : Int64).toInt = (1 : Nat) := by decide
  obtain ⟨moved, done, -, movedLast⟩ :=
    applyToList_of_inside parting rfl whole asked place (by decide)
  have ended : after.images = moved := congrArg (fun ended => ended.2.images) done
  have third : s.syncedImages.getLast? = some (s.settings.image.sync (named "c")) := rfl
  have names : after.images.toList.map Image.filename = ["a", "c", "b"] := by
    rw [ended, movedLast.eq_insertIdx third]
    rfl
  refine ⟨read, rfl, names, fun stayed => ?_⟩
  have others : (after.images.toList.map Image.filename).eraseIdx 2 = ["a", "b"] := by
    rw [List.eraseIdx_map, stayed.others]
    rfl
  simp [names] at others

end Session
end Darkroom
