import Darkroom.Engine.Standard
import Darkroom.Proofs.Pixels.Append
import Darkroom.Proofs.Pixels.Merge
import Darkroom.Proofs.Session.Rearrangement

/-!
# Lists made anew

The engine makes a new list out of all images of a session, each in line with the settings.  Merged
or laid in a row they become one image, drawn out they become the frames of an animation, and
nothing else of the session changes.
-/

namespace Darkroom
namespace Session

section Assembled

variable {σ : Type} (engine : Engine σ) {s : Session σ} {option : String}
  {first? second? : Option String} {operator : ListOperator} {op : Assembly}

theorem isEmpty_of_syncedImages
    (whole : s.images.Whole)
    (nonempty : s.syncedImages ≠ []) :
    s.images.isEmpty = false := by
  rw [← s.syncAll_isEmpty, (syncAll_whole whole).isEmpty_toList, syncAll_toList whole]
  exact List.isEmpty_eq_false_iff.mpr nonempty

theorem toList_replaceAll
    (images : Reel Image)
    (made : List Image) :
    (images.replaceAll made).toList = made :=
  (Reel.Whole.replaceAll images made).wellFormed.toList_of_places
    (Reel.replaceAll_places images made)

/-- What the engine makes of all images is laid into the list anew. -/
theorem applyToList_eq_replaceAll
    (named : ListOperator.named? (Invocation.of option first? second?).name = some operator)
    (whole : s.images.Whole)
    (nonempty : s.syncedImages ≠ [])
    (decided : operator (s.syncAll.view engine) s.syncAll.images
      (Invocation.of option first? second?) = .ok (.assemble op))
    {made : List Image}
    {world : σ}
    (assembled : engine.assemble s.syncedImages op s.world = (.ok made, world)) :
    s.applyToList engine option first? second? =
      (none, { s with images := (Reel.ofList s.syncedImages).replaceAll made, world }) := by
  have operands : s.syncAll.images.intoList = s.syncedImages := by
    rw [(syncAll_whole whole).wellFormed.intoList_eq, ← (syncAll_whole whole).wellFormed.toList_eq,
      syncAll_toList whole]
  have performed : s.syncAll.performOnList engine (.assemble op) =
      (.ok (), { s with images := (Reel.ofList s.syncedImages).replaceAll made, world }) := by
    rw [performOnList, assembleAll, operands, assemble]
    rw [show ({ s.syncAll with images := .ofList s.syncedImages } : Session σ).world = s.world
      from rfl, assembled]
    rfl
  rw [applyToList_of_nonempty engine named (isEmpty_of_syncedImages whole nonempty), decided]
  dsimp only
  rw [performed]
  rfl

/-- What the engine makes of all images takes the place of the list. -/
theorem applyToList_of_assembled
    (named : ListOperator.named? (Invocation.of option first? second?).name = some operator)
    (whole : s.images.Whole)
    (nonempty : s.syncedImages ≠ [])
    (decided : operator (s.syncAll.view engine) s.syncAll.images
      (Invocation.of option first? second?) = .ok (.assemble op))
    {made : List Image}
    {world : σ}
    (assembled : engine.assemble s.syncedImages op s.world = (.ok made, world)) :
    ∃ images : Reel Image, images.toList = made ∧
      s.applyToList engine option first? second? = (none, { s with images, world }) :=
  ⟨(Reel.ofList s.syncedImages).replaceAll made, toList_replaceAll _ _,
    applyToList_eq_replaceAll engine named whole nonempty decided assembled⟩

/-- What the engine makes of some images takes the place of the list. -/
theorem applyToList_of_assembledFrom
    (named : ListOperator.named? (Invocation.of option first? second?).name = some operator)
    (whole : s.images.Whole)
    (nonempty : s.syncedImages ≠ [])
    {operands : List Image}
    (decided : operator (s.syncAll.view engine) s.syncAll.images
      (Invocation.of option first? second?) = .ok (.assembleFrom operands op))
    {made : List Image}
    {world : σ}
    (assembled : engine.assemble operands op s.world = (.ok made, world)) :
    ∃ images : Reel Image, images.toList = made ∧
      s.applyToList engine option first? second? = (none, { s with images, world }) := by
  refine ⟨s.syncAll.images.replaceAll made, toList_replaceAll _ _, ?_⟩
  have performed : s.syncAll.performOnList engine (.assembleFrom operands op) =
      (.ok (), { s with images := s.syncAll.images.replaceAll made, world }) := by
    rw [performOnList, assemble, show s.syncAll.world = s.world from rfl, assembled]
    rfl
  rw [applyToList_of_nonempty engine named (isEmpty_of_syncedImages whole nonempty), decided]
  dsimp only
  rw [performed]
  rfl

end Assembled

/-! ## Merged layers -/

/-- Layers that end in range and span less than a length counts are merged onto the box around them:
nothing of them is lost, and they are composed in order, each in its own way. -/
theorem merge_shows_every_layer
    {first : Image}
    {rest : List Image}
    (inRange : Rect.EndInRange (Layers.places (first :: rest)))
    (span : Rect.SpanLength (Layers.places (first :: rest))) :
    ∃ merged,
      PixelEngine.assemble (first :: rest) (.layers .merge) = .ok [merged] ∧
      Layers.IsMerged (first :: rest) first.background merged ∧
      ∀ s : Session Disk, s.images.Whole → s.syncedImages = first :: rest →
        ∃ images : Reel Image, images.toList = [merged] ∧
          s.applyToList .standard "-layers" (some "Merge") none = (none, { s with images }) := by
  refine ⟨Layers.flatten .merge first rest, rfl, Layers.flatten_merge_isMerged inRange span,
    fun s whole operands => ?_⟩
  have decided : ListOperator.layers (s.syncAll.view .standard) s.syncAll.images
      (Invocation.of "-layers" (some "Merge") none) = .ok (.assemble (.layers .merge)) := rfl
  refine applyToList_of_assembled .standard rfl whole ?_ decided ?_
  · rw [operands]
    exact List.cons_ne_nil _ _
  · rw [operands]
    rfl

/-- A layer to the left of the origin, and one that is added to it. -/
theorem merge_layer_added_to_another :
    let below : Image :=
      { bitmap := Bitmap.rgba (Raster.fill ⟨2, 1⟩ ⟨100, 0, 0, 255⟩), page := { x := -1 } }
    let above : Image :=
      { bitmap := Bitmap.rgba (Raster.fill ⟨2, 2⟩ ⟨0, 50, 0, 255⟩), compose := .plus }
    let s : Session Disk := { images := .ofList [below, above], world := ⟨[]⟩ }
    Rect.EndInRange (Layers.places [below, above]) ∧
      Rect.SpanLength (Layers.places [below, above]) ∧
      s.images.Whole ∧ s.syncedImages = [below, above] ∧
      ∃ merged,
        PixelEngine.assemble [below, above] (.layers .merge) = .ok [merged] ∧
        Layers.IsMerged [below, above] below.background merged ∧
        ∃ images : Reel Image, images.toList = [merged] ∧
          s.applyToList .standard "-layers" (some "Merge") none = (none, { s with images }) := by
  intro below above s
  have inRange : Rect.EndInRange (Layers.places [below, above]) := by decide
  have span : Rect.SpanLength (Layers.places [below, above]) := by decide
  have whole : s.images.Whole := .ofList _
  have operands : s.syncedImages = [below, above] := rfl
  obtain ⟨merged, assembled, isMerged, carriedOut⟩ := merge_shows_every_layer inRange span
  exact ⟨inRange, span, whole, operands, merged, assembled, isMerged,
    carriedOut s whole operands⟩

/-- The canvas for an image without columns is one pixel wide, and not the least rectangle; where an
image ends beyond the range of coordinates, the end is lost. -/
theorem merge_canvas_beside_box :
    let blank : Image := { bitmap := Bitmap.rgba (Raster.fill ⟨0, 1⟩ Color.white) }
    let dot : Bitmap := Bitmap.rgba (Raster.fill ⟨1, 1⟩ Color.white)
    let inner : Image := { bitmap := dot, page := { x := Int64.maxValue - 1 } }
    let outer : Image := { bitmap := dot, page := { x := Int64.maxValue } }
    ∀ images ∈ [[blank], [inner, outer]],
      images ≠ [] ∧ Rect.SpanLength (Layers.places images) ∧
      ¬ ∃ merged, ∃ box : Rect, PixelEngine.assemble images (.layers .merge) = .ok [merged] ∧
        box.IsBoxAround (Layers.places images) ∧ merged.size = ⟨box.width, box.height⟩ := by
  intro blank dot inner outer
  -- The canvas is one pixel wide for both, but the boxes are none and two wide.
  refine List.forall_mem_cons.mpr ⟨⟨by decide, by decide, ?_⟩,
    List.forall_mem_singleton.mpr ⟨by decide, by decide, ?_⟩⟩
  · rintro ⟨merged, box, assembled, around, size⟩
    obtain rfl : Layers.flatten .merge blank [] = merged :=
      (List.cons.inj (Except.ok.inj assembled)).1
    have canvas : (Layers.flatten .merge blank []).size.width.toNat = 1 := by decide
    have width : box.width.toNat = 1 := by
      rw [size] at canvas
      exact canvas
    have within : (⟨0, 0, 0, 1⟩ : Rect).Surrounds box := around.least (by decide)
    have starts : (0 : Int) ≤ box.x.toInt := within.1.1
    have ends : box.x.toInt + box.width.toNat ≤ 0 := within.1.2
    omega
  · rintro ⟨merged, box, assembled, around, size⟩
    obtain rfl : Layers.flatten .merge inner [outer] = merged :=
      (List.cons.inj (Except.ok.inj assembled)).1
    have canvas : (Layers.flatten .merge inner [outer]).size.width.toNat = 1 := by decide
    have width : box.width.toNat = 1 := by
      rw [size] at canvas
      exact canvas
    have starts : box.x.toInt ≤ (Int64.maxValue - 1).toInt :=
      (around.surrounds ⟨Int64.maxValue - 1, 0, 1, 1⟩ (by decide)).1.1
    have ends : Int64.maxValue.toInt + 1 ≤ box.x.toInt + box.width.toNat :=
      (around.surrounds ⟨Int64.maxValue, 0, 1, 1⟩ (by decide)).1.2
    have apart : (Int64.maxValue - 1).toInt < Int64.maxValue.toInt := by decide
    omega

/-! ## Images in a row -/

/-- Images whose lengths together are a length are laid side by side, top to bottom or left to right
when the operator is taken back. -/
theorem append_lays_side_by_side
    {vertical : Bool}
    {first : Image}
    {rest : List Image}
    (fits : Layers.rowLength vertical (first :: rest) < 2 ^ 32) :
    ∃ row,
      PixelEngine.assemble (first :: rest) (.append vertical) = .ok [row] ∧
      Layers.IsRow vertical (first :: rest) first.background row ∧
      ∀ s : Session Disk, s.images.Whole → s.syncedImages = first :: rest →
        ∃ images : Reel Image, images.toList = [row] ∧
          s.applyToList .standard (if vertical then "-append" else "+append") none none =
            (none, { s with images }) := by
  refine ⟨Layers.append vertical 0 first rest, rfl, Layers.append_isRow fits,
    fun s whole operands => ?_⟩
  have named : ListOperator.named?
      (Invocation.of (if vertical then "-append" else "+append") none none).name =
        some ListOperator.append := by
    cases vertical <;> rfl
  have decided : ListOperator.append (s.syncAll.view .standard) s.syncAll.images
      (Invocation.of (if vertical then "-append" else "+append") none none) =
        .ok (.assemble (.append vertical)) := by
    cases vertical <;> rfl
  refine applyToList_of_assembled .standard named whole ?_ decided ?_
  · rw [operands]
    exact List.cons_ne_nil _ _
  · rw [operands]
    rfl

/-- Three images of different sizes, one above the other. -/
theorem append_three_images :
    let image (size : Size) (color : Color) : Image :=
      { bitmap := Bitmap.rgba (Raster.fill size color) }
    let images : List Image := [image ⟨2, 1⟩ ⟨255, 0, 0, 255⟩, image ⟨1, 2⟩ ⟨0, 255, 0, 128⟩,
      image ⟨3, 1⟩ ⟨0, 0, 255, 255⟩]
    let s : Session Disk := { images := .ofList images, world := ⟨[]⟩ }
    Layers.rowLength true images < 2 ^ 32 ∧ s.images.Whole ∧ s.syncedImages = images ∧
      ∃ row,
        PixelEngine.assemble images (.append true) = .ok [row] ∧
        Layers.IsRow true images Color.white row ∧
        ∃ list : Reel Image, list.toList = [row] ∧
          s.applyToList .standard "-append" none none = (none, { s with images := list }) := by
  intro image images s
  have fits : Layers.rowLength true images < 2 ^ 32 := by decide
  have whole : s.images.Whole := .ofList _
  have operands : s.syncedImages = images := rfl
  obtain ⟨row, assembled, isRow, carriedOut⟩ := append_lays_side_by_side fits
  exact ⟨fits, whole, operands, row, assembled, isRow, carriedOut s whole operands⟩

/-- A row of an image without columns is one pixel long. -/
theorem append_no_columns :
    let blank : Image := { bitmap := Bitmap.rgba (Raster.fill ⟨0, 1⟩ Color.white) }
    Layers.rowLength false [blank] < 2 ^ 32 ∧
      ¬ ∃ row, PixelEngine.assemble [blank] (.append false) = .ok [row] ∧
        row.raster.along false = Layers.rowLength false [blank] := by
  intro blank
  refine ⟨by decide, ?_⟩
  rintro ⟨row, assembled, length⟩
  obtain rfl : Layers.append false 0 blank [] = row := (List.cons.inj (Except.ok.inj assembled)).1
  revert length
  decide

/-! ## Frames of an animation -/

/-- Images drawn out become frames of the size of the first page, or of the first image when that
page has no width or no height, each the image over all before it; and the frames of the first
images are the first frames. -/
theorem coalesce_draws_frames
    (first : Image)
    (rest : List Image) :
    ∃ frames,
      PixelEngine.assemble (first :: rest) .coalesce = .ok frames ∧
      PixelEngine.assemble (first :: rest) (.layers .coalesce) = .ok frames ∧
      Layers.AreFrames
        (if first.page.width = 0 ∨ first.page.height = 0 then first.size
          else ⟨first.page.width, first.page.height⟩)
        (first :: rest) frames ∧
      (∀ k : Nat, 1 ≤ k →
        PixelEngine.assemble ((first :: rest).take k) .coalesce = .ok (frames.take k)) ∧
      ∀ s : Session Disk, s.images.Whole → s.syncedImages = first :: rest →
        ∀ command ∈ [("-coalesce", none), ("-layers", some "Coalesce")],
          ∃ images : Reel Image, images.toList = frames ∧
            s.applyToList .standard command.1 command.2 none = (none, { s with images }) := by
  refine ⟨Layers.coalesce first rest, rfl, rfl, ?_, ?_, fun s whole operands => ?_⟩
  · rw [← Layers.canvasSize_eq]
    exact Layers.areFrames_coalesceOnto _ (first :: rest)
  · rintro (_ | k) positive
    · exact absurd positive (Nat.not_succ_le_zero 0)
    · exact congrArg Except.ok (Layers.coalesce_take first rest k)
  · have nonempty : s.syncedImages ≠ [] := operands ▸ List.cons_ne_nil _ _
    refine List.forall_mem_cons.mpr ⟨?_, List.forall_mem_singleton.mpr ?_⟩
    · have named : ListOperator.named? (Invocation.of "-coalesce" none none).name =
          some (ListOperator.always .coalesce) := rfl
      refine applyToList_of_assembled .standard named whole nonempty rfl ?_
      rw [operands]
      rfl
    · have named : ListOperator.named? (Invocation.of "-layers" (some "Coalesce") none).name =
          some ListOperator.layers := rfl
      refine applyToList_of_assembled .standard named whole nonempty rfl ?_
      rw [operands]
      rfl

/-- Two images, the second beyond the edge of the page of the first. -/
theorem coalesce_two_images :
    let first : Image :=
      { bitmap := Bitmap.rgba (Raster.fill ⟨2, 1⟩ ⟨255, 0, 0, 255⟩), page := ⟨3, 2, 1, 0⟩ }
    let second : Image :=
      { bitmap := Bitmap.rgba (Raster.fill ⟨2, 2⟩ ⟨0, 255, 0, 128⟩), page := { x := -1, y := 1 } }
    let s : Session Disk := { images := .ofList [first, second], world := ⟨[]⟩ }
    s.images.Whole ∧ s.syncedImages = [first, second] ∧
      ∃ frames,
        PixelEngine.assemble [first, second] .coalesce = .ok frames ∧
        Layers.AreFrames ⟨3, 2⟩ [first, second] frames ∧
        PixelEngine.assemble [first] .coalesce = .ok (frames.take 1) ∧
        ∃ images : Reel Image, images.toList = frames ∧
          s.applyToList .standard "-coalesce" none none = (none, { s with images }) := by
  intro first second s
  have whole : s.images.Whole := .ofList _
  have operands : s.syncedImages = [first, second] := rfl
  obtain ⟨frames, assembled, -, areFrames, stable, carriedOut⟩ :=
    coalesce_draws_frames first [second]
  exact ⟨whole, operands, frames, assembled, areFrames, stable 1 (Nat.le_refl 1),
    carriedOut s whole operands ("-coalesce", none) (List.mem_cons_self ..)⟩

end Session
end Darkroom
