import Darkroom.Engine.Pixel
import Darkroom.Proofs.Operators.Operands
import Darkroom.Proofs.Pixels.Drawings
import Darkroom.Proofs.Session.Assembly

/-!
# Images composed onto others

A source that is drawn onto a destination changes the pixels that it covers and nothing else.  Of
two sequences each destination gets the source at its own position, and the last source serves all
destinations that have none.

The first two images of a list are composed to one, or a null image parts the list into destinations
and sources, which are composed pair by pair.  How is a setting, and where is what the geometry of
the first source says under the gravity of the first destination.
-/

namespace Darkroom

/-! ## Images with drawings -/

namespace Layers

/-- An image with a drawing on it. -/
structure IsDrawnOn (drawing : Drawing) (destination result : Image) : Prop where
  /-- All but the pixels is as in the image. -/
  kept : result = destination.withRaster result.raster
  /-- It has the size of the image. -/
  size : result.size = destination.size
  /-- The pixels under the drawing are composed with it, and the others stay. -/
  colors : ∀ {x y : Nat}, destination.size.Contains x y →
    result.raster.get x y = drawing.paint x y (destination.raster.get x y)

theorem composite_isDrawnOn
    (compose : Compose)
    (x y : Int64)
    (destination source : Image) :
    IsDrawnOn ⟨source.raster, x, y, compose⟩ destination
      (composite compose x y destination source) := by
  refine ⟨rfl, rfl, fun {column row} inside => ?_⟩
  have onRaster : destination.raster.size.Contains column row := inside
  exact Drawing.get_onto onRaster ⟨source.raster, x, y, compose⟩

/-! ## Masks -/

/-- A result in which a mask decides where a composition takes place. -/
structure Honors (mask destination composed result : Image) : Prop where
  /-- Under black the destination stays. -/
  black : ∀ {x y : Nat}, destination.size.Contains x y → mask.raster.get x y = Color.black →
    result.raster.get x y = destination.raster.get x y
  /-- Under white the composition is seen. -/
  white : ∀ {x y : Nat}, destination.size.Contains x y → mask.raster.get x y = Color.white →
    result.raster.get x y = composed.raster.get x y

/-- A composition that takes place everywhere honors the masks that are black only where the drawing
leaves the color of the destination. -/
theorem IsDrawnOn.honors_iff
    {drawing : Drawing}
    {mask destination composed : Image}
    (drawn : IsDrawnOn drawing destination composed) :
    Honors mask destination composed composed ↔
      ∀ {x y : Nat}, destination.size.Contains x y → mask.raster.get x y = Color.black →
        drawing.paint x y (destination.raster.get x y) = destination.raster.get x y := by
  constructor
  · intro honors x y inside black
    rw [← drawn.colors inside, honors.black inside black]
  · intro spared
    exact ⟨fun inside black => (drawn.colors inside).trans (spared inside black),
      fun _ _ => rfl⟩

/-! ## Sequences -/

/-- The images before a place, each with an image behind the place drawn onto it.  The image at the
place is neither. -/
structure ArePaired (compose : Compose) (x y : Int64) (images : List Image) (place : Nat)
    (results : List Image) : Prop where
  /-- There are as many results as images before the place. -/
  length : results.length = place
  /-- The sources follow each other as the destinations do, and the last one serves all that are
  left; each is moved by the difference of the pages. -/
  drawn : ∀ {i : Nat}, i < place → ∃ destination source result,
    images[i]? = some destination ∧
    images[place + 1 + min i (images.length - place - 2)]? = some source ∧
    results[i]? = some result ∧
    IsDrawnOn ⟨source.raster, x + source.page.x - destination.page.x,
      y + source.page.y - destination.page.y, compose⟩ destination result

variable {compose : Compose} {x y : Int64}

theorem getElem?_compositePairs
    {destinations sources : List Image}
    {i : Nat}
    {destination source : Image}
    (found : destinations[i]? = some destination)
    (served : sources[min i (sources.length - 1)]? = some source) :
    (compositePairs compose x y destinations sources)[i]? = some
      (composite compose (x + source.page.x - destination.page.x)
        (y + source.page.y - destination.page.y) destination source) := by
  rw [compositePairs, List.getElem?_mapIdx, found, Option.map_some, served]

theorem compositePairs_arePaired
    {images : List Image}
    {place : Nat}
    (inside : place + 1 < images.length) :
    ArePaired compose x y images place
      (compositePairs compose x y (images.take place) (images.drop (place + 1))) := by
  have before : (images.take place).length = place :=
    List.length_take_of_le (Nat.le_of_lt (Nat.lt_of_succ_lt inside))
  refine ⟨by rw [compositePairs, List.length_mapIdx, before], fun {i} less => ?_⟩
  -- The last source is the last image.
  have last : (images.drop (place + 1)).length - 1 = images.length - place - 2 := by
    rw [List.length_drop]
    omega
  have destinationHere : i < images.length := by omega
  have sourceHere : place + 1 + min i (images.length - place - 2) < images.length := by omega
  have found : (images.take place)[i]? = some images[i] := by
    rw [List.getElem?_take_of_lt less, List.getElem?_eq_getElem destinationHere]
  have served : (images.drop (place + 1))[min i ((images.drop (place + 1)).length - 1)]? =
      some images[place + 1 + min i (images.length - place - 2)] := by
    rw [last, List.getElem?_drop, List.getElem?_eq_getElem sourceHere]
  exact ⟨_, _, _, List.getElem?_eq_getElem destinationHere, List.getElem?_eq_getElem sourceHere,
    getElem?_compositePairs found served, composite_isDrawnOn _ _ _ _ _⟩

end Layers

namespace PixelEngine

/-- A list without the image at a place is composed pair by pair around that place. -/
theorem assemble_compositeLayers
    (compose : Compose)
    (x y : Int64)
    {images : List Image}
    {place : Nat}
    (behind : 1 ≤ place)
    (inside : place + 1 < images.length) :
    assemble (images.take place ++ images.drop (place + 1)) (.compositeLayers compose x y place) =
      .ok (Layers.compositePairs compose x y (images.take place) (images.drop (place + 1))) := by
  have before : (images.take place).length = place :=
    List.length_take_of_le (Nat.le_of_lt (Nat.lt_of_succ_lt inside))
  have paired : ∀ all : List Image, 1 ≤ all.length →
      assemble all (.compositeLayers compose x y place) =
        .ok (Layers.compositePairs compose x y (all.take place) (all.drop place)) := by
    rintro (_ | ⟨first, rest⟩) nonempty
    · exact absurd nonempty (Nat.not_succ_le_zero 0)
    · rfl
  rw [paired _ (by rw [List.length_append, before]; omega), List.take_left' before,
    List.drop_left' before]

end PixelEngine

namespace Session

open ListOperator

/-! ## Two images -/

/-- What is composed of the first two images takes the place of the list. -/
theorem applyToList_composite
    {s : Session Disk}
    {destination source : Image}
    {others : List Image}
    (whole : s.images.Whole)
    (operands : s.syncedImages = destination :: source :: others) :
    ∃ images : Reel Image,
      images.toList = [Layers.composite (composeSetting (s.view .standard))
        (compositeOffset destination source).1 (compositeOffset destination source).2
        destination source] ∧
      s.applyToList .standard "-composite" none none = (none, { s with images }) := by
  have nonempty : s.syncedImages ≠ [] := operands ▸ List.cons_ne_nil _ _
  have decided := composite_of_two (s.syncAll.view .standard)
    (Invocation.of "-composite" none none) (syncAll_whole whole)
    ((syncAll_toList whole).trans operands)
  exact applyToList_of_assembledFrom .standard rfl whole nonempty decided rfl

/-- The second of several images is composed onto the first, the others left aside.  So a mask in
the third place is honored when the drawing leaves the destination as it is under the black of the
mask, and only then. -/
theorem composite_honors_mask_iff
    (compose : Compose)
    (x y : Int64)
    (destination source : Image) :
    ∃ composed,
      PixelEngine.assemble [destination, source] (.composite compose x y) = .ok [composed] ∧
      Layers.IsDrawnOn ⟨source.raster, x, y, compose⟩ destination composed ∧
      (∀ (mask : Image) (others : List Image), ∃ result,
        PixelEngine.assemble (destination :: source :: mask :: others) (.composite compose x y) =
          .ok [result] ∧
        (Layers.Honors mask destination composed result ↔
          ∀ {column row : Nat}, destination.size.Contains column row →
            mask.raster.get column row = Color.black →
            Drawing.paint column row (destination.raster.get column row)
                ⟨source.raster, x, y, compose⟩ =
              destination.raster.get column row)) ∧
      ∀ (s : Session Disk) (others : List Image), s.images.Whole →
        s.syncedImages = destination :: source :: others →
        composeSetting (s.view .standard) = compose →
        compositeOffset destination source = (x, y) →
        ∃ images : Reel Image, images.toList = [composed] ∧
          s.applyToList .standard "-composite" none none = (none, { s with images }) := by
  have drawn := Layers.composite_isDrawnOn compose x y destination source
  refine ⟨_, rfl, drawn, fun mask others => ⟨_, rfl, drawn.honors_iff⟩, ?_⟩
  intro s others whole operands chosen offset
  have carriedOut := applyToList_composite whole operands
  rwa [chosen, offset] at carriedOut

/-- A mask that is white everywhere is honored. -/
theorem composite_under_white_mask :
    let image (color : Color) : Image := { bitmap := Bitmap.rgba (Raster.fill ⟨1, 1⟩ color) }
    let destination := image ⟨255, 0, 0, 255⟩
    let source := image ⟨0, 0, 255, 255⟩
    let mask := image Color.white
    let s : Session Disk := { images := .ofList [destination, source, mask], world := ⟨[]⟩ }
    s.images.Whole ∧ s.syncedImages = [destination, source, mask] ∧
      composeSetting (s.view .standard) = .over ∧ compositeOffset destination source = (0, 0) ∧
      ∃ composed,
        Layers.IsDrawnOn ⟨source.raster, 0, 0, .over⟩ destination composed ∧
        PixelEngine.assemble [destination, source, mask] (.composite .over 0 0) =
          .ok [composed] ∧
        Layers.Honors mask destination composed composed ∧
        ∃ images : Reel Image, images.toList = [composed] ∧
          s.applyToList .standard "-composite" none none = (none, { s with images }) := by
  intro image destination source mask s
  have whole : s.images.Whole := .ofList _
  have operands : s.syncedImages = [destination, source, mask] := rfl
  have chosen : composeSetting (s.view .standard) = .over := rfl
  have offset : compositeOffset destination source = (0, 0) := by decide
  obtain ⟨composed, alone, drawn, masked, carriedOut⟩ :=
    composite_honors_mask_iff .over 0 0 destination source
  obtain ⟨result, assembled, honored⟩ := masked mask []
  obtain rfl : composed = result :=
    (List.cons.inj (Except.ok.inj (alone.symm.trans assembled))).1
  refine ⟨whole, operands, chosen, offset, composed, drawn, assembled, honored.mpr ?_,
    carriedOut s [mask] whole operands chosen offset⟩
  intro column row inside black
  have white : mask.raster.get column row = Color.white := Raster.get_fill _ inside
  exact absurd (white.symm.trans black) (by decide)

/-- Under the black of a mask the source is seen. -/
theorem composite_under_black_mask :
    let image (color : Color) : Image := { bitmap := Bitmap.rgba (Raster.fill ⟨1, 1⟩ color) }
    let destination := image ⟨255, 0, 0, 255⟩
    let source := image ⟨0, 0, 255, 255⟩
    let mask := image Color.black
    let s : Session Disk := { images := .ofList [destination, source, mask], world := ⟨[]⟩ }
    ∃ composed result,
      PixelEngine.assemble [destination, source] (.composite .over 0 0) = .ok [composed] ∧
      (s.applyToList .standard "-composite" none none).2.images.toList = [result] ∧
      ¬ Layers.Honors mask destination composed result := by
  intro image destination source mask s
  have operands : s.syncedImages = destination :: source :: [mask] := rfl
  obtain ⟨images, made, carriedOut⟩ := applyToList_composite (.ofList _) operands
  refine ⟨_, _, rfl, (congrArg (·.2.images.toList) carriedOut).trans made, fun honors => ?_⟩
  have kept := honors.black (x := 0) (y := 0) (by decide) rfl
  revert kept
  decide +kernel

/-! ## Sequences -/

section Layers

variable {s : Session Disk} {method : String} {second? : Option String}

theorem layers_of_composite
    (meant : (Invocation.of "-layers" (some method) second?).keyword LayerMethod = .ok .composite) :
    layers (s.syncAll.view .standard) s.syncAll.images
        (Invocation.of "-layers" (some method) second?) =
      compositeLayers (s.syncAll.view .standard) s.syncAll.images := by
  rw [layers, meant]
  rfl

/-- The images behind the first null image are composed onto those before it, one by one.  The null
image is missing when there is none behind the first image, or when nothing is behind it; then the
images are in line with the settings, and nothing else has changed. -/
theorem layers_composite_pairs
    (meant : (Invocation.of "-layers" (some method) second?).keyword LayerMethod = .ok .composite)
    (whole : s.images.Whole)
    (nonempty : s.syncedImages ≠ []) :
    ((∀ place, IsFirstNull s.syncedImages place → s.syncedImages.length ≤ place + 1) →
      s.applyToList .standard "-layers" (some method) second? =
        (none, s.syncAll.report .missingSeparator "-layers")) ∧
    ∀ {place : Nat}, IsFirstNull s.syncedImages place → place + 1 < s.syncedImages.length →
      ∃ destination source : Image, ∃ images : Reel Image,
        s.syncedImages[0]? = some destination ∧
        s.syncedImages[place + 1]? = some source ∧
        Layers.ArePaired (composeSetting (s.view .standard)) (compositeOffset destination source).1
          (compositeOffset destination source).2 s.syncedImages place images.toList ∧
        s.applyToList .standard "-layers" (some method) second? = (none, { s with images }) := by
  have contents : s.syncAll.images.toList = s.syncedImages := syncAll_toList whole
  have named : named? (Invocation.of "-layers" (some method) second?).name = some layers := rfl
  refine ⟨fun lacking => ?_, fun {place} isFirst inside => ?_⟩
  · exact applyToList_of_error .standard named (isEmpty_of_syncedImages whole nonempty)
      ((layers_of_composite meant).trans (compositeLayers_of_no_separator _ contents lacking))
  · have front : s.syncedImages[0]? = some s.syncedImages[0] :=
      List.getElem?_eq_getElem (by omega)
    have next : s.syncedImages[place + 1]? = some s.syncedImages[place + 1] :=
      List.getElem?_eq_getElem inside
    have decided := (layers_of_composite meant).trans
      (compositeLayers_of_separates (s.syncAll.view .standard) (syncAll_whole whole) contents
        isFirst inside front next)
    obtain ⟨images, made, carriedOut⟩ :=
      applyToList_of_assembledFrom .standard named whole nonempty decided
        (congrArg (·, s.world) (PixelEngine.assemble_compositeLayers _ _ _ isFirst.behind inside))
    refine ⟨_, _, images, front, next, ?_, carriedOut⟩
    rw [made]
    exact Layers.compositePairs_arePaired inside

/-- Two destinations, one source: a null image in between, and another one behind it. -/
theorem layers_composite_two_destinations :
    let image (color : Color) : Image := { bitmap := Bitmap.rgba (Raster.fill ⟨2, 1⟩ color) }
    let null : Image := { image Color.transparent with format := "NULL" }
    let source : Image := { image ⟨0, 0, 255, 255⟩ with page := { x := 1 } }
    let images := [image ⟨255, 0, 0, 255⟩, image ⟨0, 255, 0, 255⟩, null, source, null]
    let s : Session Disk := { images := .ofList images, world := ⟨[]⟩ }
    (Invocation.of "-layers" (some "Composite") none).keyword LayerMethod = .ok .composite ∧
      s.images.Whole ∧ s.syncedImages = images ∧ s.syncedImages ≠ [] ∧
      IsFirstNull images 2 ∧ 2 + 1 < images.length ∧
      ∃ result : Reel Image,
        Layers.ArePaired .over 0 0 images 2 result.toList ∧
        s.applyToList .standard "-layers" (some "Composite") none =
          (none, { s with images := result }) := by
  intro image null source images s
  have meant : (Invocation.of "-layers" (some "Composite") none).keyword LayerMethod =
      .ok .composite := rfl
  have whole : s.images.Whole := .ofList _
  have operands : s.syncedImages = images := rfl
  have nonempty : s.syncedImages ≠ [] := operands ▸ List.cons_ne_nil _ _
  have isFirst : IsFirstNull images 2 := isFirstNull_cons_iff.mpr (by decide)
  have inside : 2 + 1 < images.length := by decide
  obtain ⟨_, _, result, front, next, paired, carriedOut⟩ :=
    (layers_composite_pairs meant whole nonempty).2 (operands ▸ isFirst) (operands ▸ inside)
  obtain rfl := Option.some.inj front
  obtain rfl := Option.some.inj next
  exact ⟨meant, whole, operands, nonempty, isFirst, inside, result, paired, carriedOut⟩

/-- Without images the operator is not asked, so that not the null image is missing but all of them;
and an image has the new background although the null image is missing. -/
theorem layers_composite_without_null :
    let empty : Session Disk := { images := .ofList [], world := ⟨[]⟩ }
    let image : Image := { bitmap := Bitmap.rgba (Raster.fill ⟨1, 1⟩ Color.white) }
    let s : Session Disk :=
      { images := .ofList [image], settings := { image := { background := Color.black } },
        world := ⟨[]⟩ }
    (∀ place, ¬ IsFirstNull empty.syncedImages place) ∧
      empty.applyToList .standard "-layers" (some "Composite") none =
        (none, empty.report .noImages "-layers") ∧
      empty.applyToList .standard "-layers" (some "Composite") none ≠
        (none, empty.report .missingSeparator "-layers") ∧
      (∀ place, ¬ IsFirstNull s.syncedImages place) ∧
      s.applyToList .standard "-layers" (some "Composite") none ≠
        (none, s.report .missingSeparator "-layers") := by
  intro empty image s
  refine ⟨?_, rfl, fun same => ?_, ?_, fun same => ?_⟩
  · rintro place ⟨-, ⟨null, found, -⟩, -⟩
    cases found
  · have logs : (empty.report .noImages "-layers").log =
        (empty.report .missingSeparator "-layers").log := congrArg (·.2.log) same
    revert logs
    decide
  · rintro (_ | place) ⟨behind, ⟨null, found, -⟩, -⟩
    · exact absurd behind (Nat.not_succ_le_zero 0)
    · cases found
  · have backgrounds := congrArg (·.2.images.toList.map Image.background) same
    revert backgrounds
    decide +kernel

end Layers

end Session

end Darkroom
