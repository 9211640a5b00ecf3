import Darkroom.Proofs.Geometry.Scenes
import Darkroom.Proofs.Reel.Removal
import Darkroom.Proofs.Session.Failure

/-!
# Deletion

Images are deleted at the positions that a list of scenes selects, however often and in whatever
order it names them.  The others stay in their order, under their handles, and as every operator on
the list does, deletion brings them in line with the settings.
-/

namespace Darkroom

/-- A change of every item changes what each place reads, and moves no place. -/
theorem Reel.Whole.updateAll_get?
    {α : Type}
    {r : Reel α}
    (whole : r.Whole)
    (f : α → α)
    {h : Handle}
    (mem : h ∈ r.order) :
    (r.updateAll fun _ => f).get? h = (r.get? h).map f := by
  obtain ⟨position, inside, rfl⟩ := List.mem_iff_getElem.mp mem
  have found : r.order[position]? = some r.order[position] := List.getElem?_eq_getElem inside
  have still : (r.updateAll fun _ => f).order[position]? = some r.order[position] := by
    rw [(SameFrame.updateAll r fun _ => f).order, found]
  rw [WellFormed.get?_of_found still, WellFormed.get?_of_found found,
    (whole.updateAll fun _ => f).places_eq, whole.updateAll_toList, whole.places_eq,
    List.getElem?_map, List.getElem?_map, List.getElem?_map]
  cases r.toList[position]? <;> rfl

theorem GeometryError.toFault_not_fatal
    (refusal : GeometryError) :
    refusal.toFault.isFatal = false := by
  cases refusal <;> rfl

/-- What deletion decides when it is given scenes. -/
theorem ListOperator.delete_eq
    (view : View)
    (images : Reel Image)
    {inv : Invocation}
    (normal : inv.normal = true)
    {scenes : String}
    (given : inv.first? = some scenes) :
    delete view images inv =
      match Scenes.select scenes images.length with
      | .ok selected => .ok (.rearrange (removeAll images selected))
      | .error refusal => .error refusal.toFault := by
  unfold delete Invocation.first
  rw [if_pos normal, given]
  cases selection : Scenes.select scenes images.length <;>
    simp only [selection, bind, Except.bind] <;> rfl

namespace Session

variable {σ : Type} (engine : Engine σ)

/-- Deletion leaves the images whose positions are not selected, in their order and under their
handles, each in line with the settings, and changes nothing else.  Scenes that cannot be read are
reported, and all images are left. -/
theorem delete_leaves_the_others
    {s : Session σ}
    (whole : s.images.Whole)
    (nonempty : s.images.isEmpty = false)
    (scenes : String) :
    let ended := s.applyToList engine "-delete" (some scenes) none
    let after := ended.2
    ended.1 = none ∧
      after.images.Whole ∧
      (∀ h ∈ after.images.order,
        after.images.get? h = (s.images.get? h).map s.settings.image.sync) ∧
      (∀ selected, Scenes.select scenes s.images.length = .ok selected →
        after = { s with images := after.images } ∧
          after.images.order = Reel.without selected s.images.order ∧
          after.images.toList =
            (Reel.without selected s.images.toList).map s.settings.image.sync) ∧
      ∀ refusal, Scenes.select scenes s.images.length = .error refusal →
        after = { s.report refusal.toFault "-delete" with images := after.images } ∧
          after.images.order = s.images.order ∧
          after.images.toList = s.images.toList.map s.settings.image.sync := by
  intro ended after
  have synced : s.syncAll.images.Whole := syncAll_whole whole
  have order : s.syncAll.images.order = s.images.order :=
    (Reel.SameFrame.updateAll s.images _).order
  have length : s.syncAll.images.length = s.images.length := congrArg List.length order
  have items : s.syncAll.images.toList = s.images.toList.map s.settings.image.sync :=
    syncAll_toList whole
  have acted : s.actOnList engine .delete (.of "-delete" (some scenes) none) =
      match Scenes.select scenes s.images.length with
      | .ok selected =>
          (.ok (), { s with images := ListOperator.removeAll s.syncAll.images selected })
      | .error refusal => (.error refusal.toFault, s.syncAll) := by
    rw [← length, actOnList, nonempty, Bool.false_and, if_neg (by decide),
      ListOperator.delete_eq _ _ rfl rfl]
    cases Scenes.select scenes s.syncAll.images.length <;> rfl
  have settled : ended = settle (.of "-delete" (some scenes) none)
      (s.actOnList engine .delete (.of "-delete" (some scenes) none)) := by
    rw [show ended = _ from applyToList_eq engine "-delete" (some scenes) none s]
    rfl
  rw [acted] at settled
  cases selection : Scenes.select scenes s.images.length with
  | error refusal =>
      rw [selection] at settled
      have reported : after = s.syncAll.report refusal.toFault "-delete" :=
        congrArg Prod.snd settled
      have images : after.images = s.syncAll.images := by rw [reported]; rfl
      rw [images]
      refine ⟨?_, synced, ?_, by rintro _ ⟨⟩, ?_⟩
      · rw [settled]
        exact if_neg (by simp [refusal.toFault_not_fatal])
      · intro h mem
        exact whole.updateAll_get? _ (order ▸ mem)
      · rintro _ ⟨⟩
        exact ⟨by rw [reported]; rfl, order, items⟩
  | ok selected =>
      rw [selection] at settled
      have images : after.images = ListOperator.removeAll s.syncAll.images selected :=
        congrArg (fun ended => ended.2.images) settled
      have removed : Reel.Removed selected s.syncAll.images after.images := by
        rw [images]
        exact synced.wellFormed.removed fun position mem =>
          length ▸ Scenes.lt_of_mem_select selection position mem
      refine ⟨?_, ?_, ?_, ?_, by rintro _ ⟨⟩⟩
      · rw [settled]
        rfl
      · rw [images]
        exact (ListOperator.removeAll_picked synced selected).whole
      · intro h mem
        rw [removed.get? h mem]
        refine whole.updateAll_get? _ ?_
        rw [removed.order, order] at mem
        exact Reel.without_subset mem
      · rintro _ ⟨⟩
        refine ⟨?_, by rw [removed.order, order], ?_⟩
        · rw [images]
          exact congrArg Prod.snd settled
        · rw [removed.toList synced, items, Reel.without_map]

/-- Two of four images are named five times, by ranges in both directions and from the end. -/
theorem delete_named_several_times :
    let named (name : String) : Image := { (default : Image) with filename := name }
    let s : Session Nat :=
      { images := .ofList [named "a", named "b", named "c", named "d"]
        settings := .initial
        world := 0 }
    let after := (s.applyToList parting "-delete" (some "2-1, 1-2,-3") none).2
    s.images.Whole ∧ s.images.isEmpty = false ∧
      Scenes.select "2-1, 1-2,-3" s.images.length = .ok [2, 1, 1, 2, 1] ∧
      after.images.toList.map Image.filename = ["a", "d"] := by
  intro named s after
  have whole : s.images.Whole := .ofList _
  have selection : Scenes.select "2-1, 1-2,-3" s.images.length = .ok [2, 1, 1, 2, 1] := by decide
  have left := ((delete_leaves_the_others parting whole rfl "2-1, 1-2,-3").2.2.2.1 _ selection).2.2
  exact ⟨whole, rfl, selection, by rw [left]; decide⟩

end Session
end Darkroom
