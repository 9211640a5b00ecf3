import Darkroom.Proofs.Session.Attempts
import Darkroom.Proofs.Session.Enclosing
import Darkroom.Proofs.Session.Pass

/-!
# Operators and settings that fail

An operator on one image decides before anything is done, and what it decides on is one thing: a
change that cannot fail, or one request to the engine.  So there are two ways to fail, and in both
the session is as it was, but for the world when the engine refused.  A pass puts the image back in
line with the settings, and goes on as if it had done nothing else.

An operator on the list first brings every image in line with the settings.  If it fails after
that, these are the images of the list: work for the engine that is refused gives back what it was
given, and an operator that moves places undoes what it did.  Only work that goes from image to
image keeps what was done before it failed.

Some operators do something beside the list and leave it alone when they succeed as well.  A write
gives every image another file name.

A setting decides before anything is done, and all that can go wrong afterwards is that the image
of a pattern cannot be read.  So a setting that fails has moved the world at most.
-/

namespace Darkroom

/-! ## Operators on one image -/

namespace Reel

variable {α : Type} {r : Reel α} {h : Handle}

theorem put_of_live
    {s : Slot α}
    (live : r.live? h = some s)
    (item : Option α) :
    r.put h item = { r with slots := r.slots.set h.slot { s with item } } := by
  simp [put, live]

/-- Putting an item back undoes that the old one was taken out. -/
theorem restore_take
    (r : Reel α)
    (h : Handle)
    (item : α) :
    (r.take h).2.restore h item = r.restore h item := by
  change (r.put h none).put h (some item) = r.put h (some item)
  cases live : r.live? h with
  | none => rw [put_of_dead live, put_of_dead live]
  | some s =>
      obtain ⟨found, generation⟩ := live?_eq_some_iff.mp live
      have opened : (r.put h none).live? h = some { s with item := none } :=
        live?_eq_some_iff.mpr ⟨generation ▸ put_slots_self live none, generation⟩
      rw [put_of_live opened, put_of_live live, put_of_live live, List.set_set]

end Reel

namespace Session

variable {σ : Type} {engine : Engine σ} {operator : ImageOperator} {inv : Invocation}
  {image : Image} {s after : Session σ} {fault : Fault}

end Session

/-! ## Operators on the list -/

namespace Reel

variable {α : Type} {r : Reel α}

theorem updatePlaces_of_full
    (f : α → α)
    (n : Nat)
    (items : List α) :
    updatePlaces (fun _ => f) n (items.map some) = (items.map f).map some := by
  induction items generalizing n with
  | nil => rfl
  | cons item rest inductionHypothesis =>
      rw [List.map_cons, updatePlaces, inductionHypothesis]
      rfl

/-- A change of every item is a change of the list. -/
theorem Whole.updateAll_toList
    (whole : r.Whole)
    (f : α → α) :
    (r.updateAll fun _ => f).toList = r.toList.map f := by
  refine (whole.updateAll _).wellFormed.toList_of_places ?_
  rw [whole.wellFormed.updateAll_places, whole.places_eq, updatePlaces_of_full]

/-- Items moved out of a reel make up the same list in a new one. -/
theorem Whole.ofList_intoList_toList
    (whole : r.Whole) :
    (Reel.ofList r.intoList).toList = r.toList := by
  rw [(WellFormed.ofList _).toList_of_places (ofList_places _), whole.wellFormed.intoList_eq,
    whole.wellFormed.toList_eq]

end Reel

namespace Session

variable {σ : Type} (engine : Engine σ) {s after : Session σ} {fault : Fault}

/-- The images of the list, each in line with the settings. -/
def syncedImages (s : Session σ) : List Image :=
  s.images.toList.map s.settings.image.sync

theorem syncAll_whole
    (whole : s.images.Whole) :
    s.syncAll.images.Whole :=
  whole.updateAll fun _ => s.settings.image.sync

theorem syncAll_toList
    (whole : s.images.Whole) :
    s.syncAll.images.toList = s.syncedImages :=
  whole.updateAll_toList _

theorem syncAll_order
    (s : Session σ) :
    s.syncAll.images.order = s.images.order :=
  (Reel.SameFrame.updateAll s.images _).order

theorem syncAll_length
    (s : Session σ) :
    s.syncAll.images.length = s.images.length :=
  congrArg List.length s.syncAll_order

theorem syncAll_isEmpty
    (s : Session σ) :
    s.syncAll.images.isEmpty = s.images.isEmpty := by
  rw [Reel.isEmpty, syncAll_order, Reel.isEmpty]

/-! ## Work that is refused -/

theorem assemble_failed
    {operands : List Image}
    {op : Assembly}
    (failed : s.assemble engine operands op = (.error fault, after)) :
    after = { s with world := after.world } := by
  unfold assemble at failed
  split at failed
  · cases failed
  · obtain ⟨-, rfl⟩ := Prod.mk.inj failed
    rfl

theorem writeImages_failed
    {request : WriteRequest}
    {rename : Bool}
    (failed : s.writeImages engine request rename = (.error fault, after)) :
    after.images = s.images := by
  unfold writeImages at failed
  dsimp only at failed
  split at failed
  · obtain ⟨-, rfl⟩ := Prod.mk.inj failed
    rfl
  · cases failed

/-- What was decided on leaves the images as they were when it fails. -/
theorem performOnList_failed
    {plan : ListPlan}
    (keeps : plan.FailsWith s.images.toList)
    (whole : s.images.Whole)
    (failed : s.performOnList engine plan = (.error fault, after)) :
    after.images.toList = s.images.toList := by
  cases plan with
  | assemble op =>
      have given := assemble_failed engine failed
      rw [given]
      exact whole.ofList_intoList_toList
  | assembleFrom operands op =>
      rw [assemble_failed engine failed]
  | rearrange images => cases failed
  | refuse images refusal =>
      obtain ⟨-, rfl⟩ := Prod.mk.inj failed
      exact keeps
  | remap path dither => exact keeps.elim
  | limit resource limit => cases failed
  | print text => cases failed
  | write request rename => rw [writeImages_failed engine failed]

/-! ## Settings -/

theorem place_settings
    (s : Session σ)
    (h : Handle)
    (product : Product) :
    (s.place h product).settings = s.settings := by
  cases product <;> rfl

theorem auxiliaryImage_settings
    (path : String)
    (s : Session σ) :
    (s.auxiliaryImage engine path).2.settings = s.settings := by
  have loaded := auxiliaryImage_loaded engine path s
  generalize s.auxiliaryImage engine path = ended at loaded ⊢
  cases loaded <;> rfl

theorem remapOver_settings
    (reference : Image)
    (dither : Bool)
    (handles : List Handle)
    (s : Session σ) :
    (s.remapOver engine reference dither handles).2.settings = s.settings := by
  refine remapOver_kept (fun t => t.settings = s.settings) (fun t h image product same => ?_) rfl
    handles
  rw [place_settings]
  exact same

/-- Whatever is done with the list, the settings stay. -/
theorem performOnList_settings
    (plan : ListPlan)
    (s : Session σ) :
    (s.performOnList engine plan).2.settings = s.settings := by
  cases plan with
  | assemble op =>
      rw [performOnList, assembleAll, assemble]
      split <;> rfl
  | assembleFrom operands op =>
      rw [performOnList, assemble]
      split <;> rfl
  | rearrange images => rfl
  | refuse images fault => rfl
  | remap path dither =>
      refine performOnList_remap_kept (fun t => t.settings = s.settings)
        (auxiliaryImage_settings engine path s) fun reference t same => ?_
      rw [remapOver_settings, same]
  | limit resource limit => rfl
  | print text => rfl
  | write request rename =>
      rw [performOnList, writeImages]
      dsimp only
      split <;> rfl

theorem settle_settings
    (inv : Invocation)
    (acted : Acted σ Unit) :
    (settle inv acted).2.settings = acted.2.settings := by
  obtain ⟨outcome, after⟩ := acted
  cases outcome <;> rfl

theorem actOnList_settings
    (operator : ListOperator)
    (inv : Invocation)
    (s : Session σ) :
    (s.actOnList engine operator inv).2.settings = s.settings := by
  unfold actOnList
  split
  · rfl
  · split
    · exact performOnList_settings engine _ s.syncAll
    · rfl

/-! ## Work beside the list -/

/-- What was decided on leaves the list alone when it succeeds. -/
theorem performOnList_besideList
    {plan : ListPlan}
    (beside : plan.BesideList)
    (succeeded : s.performOnList engine plan = (.ok (), after)) :
    after.images = s.images := by
  cases plan with
  | limit resource limit =>
      obtain ⟨-, rfl⟩ := Prod.mk.inj succeeded
      rfl
  | print text =>
      obtain ⟨-, rfl⟩ := Prod.mk.inj succeeded
      rfl
  | write request rename =>
      obtain rfl : rename = false := beside
      rw [performOnList, writeImages] at succeeded
      dsimp only at succeeded
      split at succeeded
      · cases succeeded
      · obtain ⟨-, rfl⟩ := Prod.mk.inj succeeded
        rfl
  | assemble op => exact beside.elim
  | assembleFrom operands op => exact beside.elim
  | rearrange images => exact beside.elim
  | refuse images refusal => exact beside.elim
  | remap path dither => exact beside.elim

/-- A write that renames gives every image the name of the path and drops the path from the
cache. -/
theorem writeImages_renamed
    {request : WriteRequest}
    (succeeded : s.writeImages engine request true = (.ok (), after)) :
    after = { s with
      images := s.images.updateAll fun _ image => { image with filename := request.destination }
      cache := (s.cache.evict request.destination).2
      world := after.world } := by
  unfold writeImages at succeeded
  dsimp only at succeeded
  split at succeeded
  · cases succeeded
  · obtain ⟨-, rfl⟩ := Prod.mk.inj succeeded
    rfl

/-! ## Operators on the list as options -/

/-- An operator on the list that succeeds has decided on something, and it was done. -/
theorem actOnList_succeeded
    {operator : ListOperator}
    {inv : Invocation}
    (succeeded : s.actOnList engine operator inv = (.ok (), after)) :
    ∃ plan, operator (s.syncAll.view engine) s.syncAll.images inv = .ok plan ∧
      s.syncAll.performOnList engine plan = (.ok (), after) := by
  unfold actOnList at succeeded
  split at succeeded
  · cases succeeded
  · split at succeeded
    · next plan decided => exact ⟨plan, decided, succeeded⟩
    · cases succeeded

/-- An operator on the list that fails leaves every image in line with the settings, and nothing
else is done to the list. -/
theorem actOnList_failed
    {operator : ListOperator}
    {inv : Invocation}
    (keeps : Plans (ListPlan.FailsWith s.syncedImages)
      (operator (s.syncAll.view engine) s.syncAll.images inv))
    (whole : s.images.Whole)
    (failed : s.actOnList engine operator inv = (.error fault, after)) :
    after.images.toList = s.syncedImages := by
  have synced : s.syncAll.images.toList = s.syncedImages := syncAll_toList whole
  unfold actOnList at failed
  split at failed
  · next refused =>
    have none : s.images.toList = [] := by
      have length : s.images.toList.length = s.images.order.length :=
        whole.wellFormed.whole_iff.mp whole
      simp only [Reel.isEmpty, Bool.and_eq_true, List.isEmpty_iff] at refused
      rwa [refused.1, List.length_nil, List.length_eq_zero_iff] at length
    obtain ⟨-, rfl⟩ := Prod.mk.inj failed
    simp [syncedImages, none]
  · split at failed
    · next plan decided =>
      rw [← synced]
      exact performOnList_failed engine (synced ▸ keeps plan decided) (syncAll_whole whole) failed
    · obtain ⟨-, rfl⟩ := Prod.mk.inj failed
      exact synced

/-- An operator on the list leaves brackets and settings alone.  If it fails, it leaves every image
in line with the settings, in the old order, unless it is the one that works from image to image.
A limit, a text that is printed and a write that does not rename leave these images when they
succeed as well, and a write that renames does no more than that. -/
theorem list_operator_is_atomic
    {option : String}
    (first? second? : Option String)
    {operator : ListOperator}
    (named : ListOperator.named? (Invocation.of option first? second?).name = some operator)
    {s : Session σ}
    (whole : s.images.Whole) :
    let inv := Invocation.of option first? second?
    let outcome := (s.actOnList engine operator inv).1
    let after := (s.applyToList engine option first? second?).2
    (after.scopes = s.scopes ∧ after.saved = s.saved ∧ after.settings = s.settings) ∧
      (∀ fault, outcome = .error fault → (inv.name = "remap" → inv.normal = false) →
        after.images.toList = s.syncedImages) ∧
      (outcome = .ok () →
        inv.name = "print" ∨ inv.name = "limit" ∨ (inv.name = "write" ∧ inv.normal = false) →
        after.images.toList = s.syncedImages) ∧
      (outcome = .ok () → inv.name = "write" → inv.normal = true →
        ∃ path, first? = some path ∧
          after.images.toList = s.syncedImages.map ({ · with filename := path }) ∧
          after = { s with
            images := after.images
            cache := (s.cache.evict path).2
            world := after.world }) := by
  intro inv outcome after
  have synced : s.syncAll.images.toList = s.syncedImages := syncAll_toList whole
  obtain ⟨result, acted, equation⟩ :
      ∃ result acted, s.actOnList engine operator inv = (result, acted) := ⟨_, _, rfl⟩
  have answered : outcome = result := congrArg Prod.fst equation
  have ended : after = (settle inv (result, acted)).2 := by
    simp only [after, applyToList_eq, inv, named, ← equation]
  have images : after.images = acted.images := by
    rw [ended]
    exact (settle_sameLists inv (result, acted)).images
  rw [images, answered]
  refine ⟨?_, ?_, ?_, ?_⟩
  · have brackets : s.SameBrackets after :=
      applyToList_sameBrackets engine option first? second? s
    have settings : acted.settings = s.settings := by
      rw [← actOnList_settings engine operator inv s, equation]
    refine ⟨brackets.scopes, brackets.saved, ?_⟩
    rw [ended, ← settings]
    exact settle_settings inv (result, acted)
  · rintro fault rfl shared
    refine actOnList_failed engine ?_ whole equation
    rw [← synced]
    exact ListOperator.named?_failsWith _ inv named shared (syncAll_whole whole)
  · rintro rfl beside
    obtain ⟨plan, decided, done⟩ := actOnList_succeeded engine equation
    rw [performOnList_besideList engine ?_ done, synced]
    exact ListOperator.named?_besideList inv _ _ named beside plan decided
  · rintro rfl isWrite renames
    obtain ⟨plan, decided, done⟩ := actOnList_succeeded engine equation
    obtain ⟨request, asked, rfl⟩ :=
      ListOperator.named?_write inv _ _ (isWrite ▸ named) plan decided
    rw [renames] at done
    have written := writeImages_renamed engine done
    refine ⟨request.destination, asked, ?_, ?_⟩
    · rw [written, (syncAll_whole whole).updateAll_toList, synced]
    · rw [ended, show settle inv (.ok (), acted) = (none, acted) from rfl, written]
      rfl

/-- An engine that has the images of a list handed to it refuses them: they make up the list again,
and have taken up the settings. -/
theorem append_refused :
    let settings := Settings.initial.setOption "gravity" "East"
    let second : Image := { (default : Image) with filename := "second" }
    let s : Session Nat := { images := .ofList [default, second], settings, world := 0 }
    let inv := Invocation.of "-append" none none
    let refusing : Engine Nat :=
      { parting with assemble := fun _ _ n => (.error (.unsupported "append"), n + 1) }
    let after := (s.applyToList refusing "-append" none none).2
    ListOperator.named? inv.name = some .append ∧ s.images.Whole ∧
      (s.actOnList refusing .append inv).1 = .error (EngineFault.unsupported "append").toFault ∧
      (inv.name = "remap" → inv.normal = false) ∧
      after.images.toList = s.syncedImages ∧
      s.syncedImages.map (fun image => (image.filename, image.gravity)) =
        [("", .east), ("second", .east)] := by
  intro settings second s inv refusing after
  have named : ListOperator.named? inv.name = some .append := rfl
  have whole : s.images.Whole := .ofList _
  have failed : (s.actOnList refusing .append inv).1 =
      .error (EngineFault.unsupported "append").toFault := rfl
  have other : inv.name = "remap" → inv.normal = false := by decide
  have atomic := list_operator_is_atomic refusing none none named whole
  exact ⟨named, whole, failed, other, atomic.2.1 _ failed other, by decide⟩

end Session

namespace Session

variable {σ : Type} (engine : Engine σ) {s after : Session σ} {fault : Fault}

/-! ## How a setting can fail -/

end Session

end Darkroom
