import Darkroom.Engine.Standard
import Darkroom.Settings

/-!
# Placement

An image knows how it is put together with others: by its gravity and by its compose operator.  Of
all that happens to an image only the settings, when the image is brought in line with them, write
these attributes.  Images that are read have the initial ones; work on pixels hands on those of the
images it is given.
-/

namespace Darkroom

/-- How an image is put together with others. -/
structure Placement where
  /-- Where it is held. -/
  gravity : Gravity := default
  /-- How it is composed onto others. -/
  compose : Compose := default
deriving Inhabited

/-- The placement of an image. -/
def Image.placement (image : Image) : Placement :=
  ⟨image.gravity, image.compose⟩

/-- A placement in line with the settings: what is not set stays. -/
def ImageSettings.syncPlacement (s : ImageSettings) (placement : Placement) : Placement where
  gravity := (s.keyword? Gravity "gravity").getD placement.gravity
  compose := (s.keyword? Compose "compose").getD placement.compose

theorem ImageSettings.sync_placement
    (s : ImageSettings)
    (image : Image) :
    (s.sync image).placement = s.syncPlacement image.placement :=
  rfl

theorem ImageSettings.syncPlacement_gravity
    {s : ImageSettings}
    (unset : s.option? "gravity" = none)
    (placement : Placement) :
    (s.syncPlacement placement).gravity = placement.gravity := by
  simp [syncPlacement, keyword?, unset]

theorem ImageSettings.syncPlacement_compose
    {s : ImageSettings}
    (unset : s.option? "compose" = none)
    (placement : Placement) :
    (s.syncPlacement placement).compose = placement.compose := by
  simp [syncPlacement, keyword?, unset]

/-- The images that stand in the place of an image that was worked on. -/
def Outcome.made (image : Image) : Outcome → List Image
  | .unchanged => [image]
  | .mutated made => [made]
  | .replaced made => [made]
  | .parts made => made

/-! ## Work on one image -/

namespace PixelEngine

/-- Every image that comes out has the placement of the image that was worked on. -/
def KeepsPlacement (image : Image) (result : Except EngineFault Outcome) : Prop :=
  ∀ outcome, result = .ok outcome →
    ∀ made ∈ outcome.made image, made.placement = image.placement

namespace KeepsPlacement

variable {image : Image}

theorem error
    (refusal : EngineFault) :
    KeepsPlacement image (.error refusal) := by
  rintro _ ⟨⟩

theorem unchanged : KeepsPlacement image (.ok .unchanged) := by
  rintro _ ⟨⟩ made mem
  rw [List.mem_singleton.mp mem]

theorem mutated
    {made : Image}
    (same : made.placement = image.placement) :
    KeepsPlacement image (.ok (.mutated made)) := by
  rintro _ ⟨⟩ _ mem
  rw [List.mem_singleton.mp mem, same]

theorem replaced
    {made : Image}
    (same : made.placement = image.placement) :
    KeepsPlacement image (.ok (.replaced made)) := by
  rintro _ ⟨⟩ _ mem
  rw [List.mem_singleton.mp mem, same]

theorem parts
    {images : List Image}
    (same : ∀ made ∈ images, made.placement = image.placement) :
    KeepsPlacement image (.ok (.parts images)) := by
  rintro _ ⟨⟩ made mem
  exact same made mem

end KeepsPlacement

variable (image : Image)

theorem setAlpha_keepsPlacement
    (mode : AlphaMode) :
    KeepsPlacement image (.ok (setAlpha mode image)) := by
  cases mode <;> first | exact .unchanged | exact .mutated rfl

theorem setType_keepsPlacement
    (type : ImageType) :
    KeepsPlacement image (.ok (setType type image)) := by
  cases type <;> first | exact .unchanged | exact .mutated rfl

theorem crop_keepsPlacement
    (regions : List Rect) :
    KeepsPlacement image (crop regions image) := by
  have same : ∀ part ∈ regions.map image.cut, part.placement = image.placement := by
    intro part mem
    obtain ⟨region, -, rfl⟩ := List.mem_map.mp mem
    rfl
  unfold crop
  split
  · exact .error _
  · next part parts =>
    rw [parts] at same
    exact .replaced (same part List.mem_cons_self)
  · exact .parts same

theorem resize_keepsPlacement
    (size : Size)
    (method : Resampling) :
    KeepsPlacement image (resize size method image) := by
  cases method with
  | liquidRescale => exact .error _
  | _ => exact .replaced rfl

theorem floodfill_keepsPlacement
    (x y : Int64)
    (target fill : Color)
    (fuzz : Float)
    (invert : Bool) :
    KeepsPlacement image (.ok (floodfill x y target fill fuzz invert image)) := by
  unfold floodfill
  split
  · exact .unchanged
  · exact .mutated rfl

theorem moved_placement
    (f : Raster → Raster) :
    (moved f image).placement = image.placement :=
  rfl

theorem negate_placement
    (spareAlpha : Bool) :
    (negate spareAlpha image).placement = image.placement := by
  unfold negate
  extract_lets out
  split <;> rfl

theorem remap_placement
    (palette : List Color) :
    (Palette.remap palette image).placement = image.placement := by
  unfold Palette.remap
  split <;> rfl

theorem rotate_placement
    (degrees : Float)
    (background : Color) :
    (image.rotate degrees background).placement = image.placement := by
  unfold Image.rotate
  extract_lets angle radians
  repeat' split
  all_goals rfl

theorem separate_placement
    (channels : ChannelSet) :
    ∀ made ∈ Layers.separate channels image, made.placement = image.placement := by
  intro made mem
  obtain ⟨channel, -, rfl⟩ := List.mem_map.mp mem
  rfl

theorem autoLevel_placement :
    (Tone.autoLevel Float image).placement = image.placement := by
  unfold Tone.autoLevel
  split
  rfl

theorem stretchContrast_placement
    (black white : Float) :
    (Tone.stretchContrast black white image).placement = image.placement := by
  unfold Tone.stretchContrast
  split
  rfl

theorem autoGamma?_placement
    {made : Image}
    (changed : Tone.autoGamma? image = some made) :
    made.placement = image.placement := by
  obtain ⟨-, made⟩ := Option.ite_none_left_eq_some.mp changed
  obtain rfl := Option.some.inj made
  rfl

theorem shave?_placement
    {margin : Size}
    {made : Image}
    (shaved : image.shave? margin = some made) :
    made.placement = image.placement := by
  obtain ⟨-, made⟩ := Option.ite_none_left_eq_some.mp shaved
  obtain rfl := Option.some.inj made
  rfl

theorem trim?_placement
    {fuzz : Float}
    {made : Image}
    (trimmed : image.trim? fuzz = some made) :
    made.placement = image.placement := by
  obtain ⟨bounds, -, rfl⟩ := Option.map_eq_some_iff.mp trimmed
  rfl

/-- Work on an image hands its placement on. -/
theorem transform_keepsPlacement
    (op : Transform) :
    KeepsPlacement image (transform image op) := by
  cases op with
  | alpha mode => exact setAlpha_keepsPlacement image mode
  | type type => exact setType_keepsPlacement image type
  | crop regions => exact crop_keepsPlacement image regions
  | resize size method => exact resize_keepsPlacement image size method
  | floodfill x y target fill fuzz invert =>
      exact floodfill_keepsPlacement image x y target fill fuzz invert
  | negate spareAlpha => exact .mutated (negate_placement image spareAlpha)
  | remap reference dither => exact .mutated (remap_placement image _)
  | rotate degrees background => exact .replaced (rotate_placement image degrees background)
  | separate channels => exact .parts (separate_placement image channels)
  | autoLevel => exact .mutated (autoLevel_placement image)
  | normalize => exact .mutated (autoLevel_placement image)
  | despeckle => exact .mutated (moved_placement image _)
  | enhance => exact .mutated (moved_placement image _)
  | contrastStretch black white => exact .mutated (stretchContrast_placement image black white)
  | linearStretch black white => exact .mutated (stretchContrast_placement image black white)
  | colorspace space =>
      refine .mutated ?_
      split <;> rfl
  | autoGamma =>
      unfold transform
      dsimp only
      split
      · next changed => exact .mutated (autoGamma?_placement image changed)
      · exact .unchanged
  | shave margin =>
      unfold transform
      dsimp only
      split
      · next shaved => exact .replaced (shave?_placement image shaved)
      · exact .error _
  | trim fuzz =>
      unfold transform
      dsimp only
      split
      · next trimmed => exact .replaced (trim?_placement image trimmed)
      · exact .unchanged
  | chop rect =>
      unfold transform
      dsimp only
      split
      · exact .replaced rfl
      · exact .error _
  | statistic kind size =>
      unfold transform
      dsimp only
      split
      · exact .mutated rfl
      · exact .error _
  | blur kind radius sigma =>
      cases kind with
      | adaptive => exact .error _
      | _ => exact .mutated rfl
  | sharpen radius sigma adaptive =>
      cases adaptive with
      | true => exact .error _
      | false => exact .mutated rfl
  | _ => first | exact .error _ | exact .unchanged | exact .mutated rfl | exact .replaced rfl

/-! ## Work on a list -/

/-- Every image that comes out has the placement of one of the images that were worked on. -/
def DrawsPlacement (operands : List Image) (result : Except EngineFault (List Image)) : Prop :=
  ∀ images, result = .ok images →
    ∀ made ∈ images, ∃ operand ∈ operands, made.placement = operand.placement

namespace DrawsPlacement

variable {operands images : List Image}

theorem error
    (refusal : EngineFault) :
    DrawsPlacement operands (.error refusal) := by
  rintro _ ⟨⟩

theorem ok
    (drawn : ∀ made ∈ images, ∃ operand ∈ operands, made.placement = operand.placement) :
    DrawsPlacement operands (.ok images) := by
  rintro _ ⟨⟩
  exact drawn

/-- One image comes out, with the placement of the first. -/
theorem first
    {first made : Image}
    {rest : List Image}
    (same : made.placement = first.placement) :
    DrawsPlacement (first :: rest) (.ok [made]) :=
  ok (List.forall_mem_singleton.mpr ⟨first, List.mem_cons_self, same⟩)

/-- No other images come out. -/
theorem of_subset
    (subset : images ⊆ operands) :
    DrawsPlacement operands (.ok images) :=
  ok fun made mem => ⟨made, subset mem, rfl⟩

/-- Each image comes out in some other form. -/
theorem map
    {f : Image → Image}
    (same : ∀ image, (f image).placement = image.placement) :
    DrawsPlacement operands (.ok (operands.map f)) := by
  refine ok fun made mem => ?_
  obtain ⟨operand, given, rfl⟩ := List.mem_map.mp mem
  exact ⟨operand, given, same operand⟩

end DrawsPlacement

theorem coalesceOnto_drawsPlacement
    (size : Size)
    (canvas : Raster)
    (images : List Image) :
    DrawsPlacement images (.ok (Layers.coalesceOnto size canvas images)) := by
  refine .ok ?_
  induction images generalizing canvas with
  | nil => exact fun made mem => absurd mem List.not_mem_nil
  | cons image rest inductionHypothesis =>
      rw [Layers.coalesceOnto]
      refine List.forall_mem_cons.mpr ⟨⟨image, List.mem_cons_self, rfl⟩, fun made mem => ?_⟩
      obtain ⟨operand, given, same⟩ := inductionHypothesis _ made mem
      exact ⟨operand, List.mem_cons_of_mem _ given, same⟩

/-- A blend has the placement of the image before it. -/
theorem morph_drawsPlacement
    (frames : Nat)
    (images : List Image) :
    DrawsPlacement images (.ok (Layers.morph frames images)) := by
  refine .ok ?_
  fun_induction Layers.morph frames images with
  | case1 a b rest steps inductionHypothesis =>
      refine List.forall_mem_cons.mpr ⟨⟨a, List.mem_cons_self, rfl⟩, ?_⟩
      refine List.forall_mem_append.mpr ⟨fun made mem => ?_, fun made mem => ?_⟩
      · obtain ⟨step, -, rfl⟩ := List.mem_map.mp mem
        exact ⟨a, List.mem_cons_self, rfl⟩
      · obtain ⟨operand, given, same⟩ := inductionHypothesis made mem
        exact ⟨operand, List.mem_cons_of_mem _ given, same⟩
  | case2 images => exact fun made mem => ⟨made, mem, rfl⟩

theorem removeRepeatsAfter_subset
    (previous : Option (Page × String))
    (images : List Image) :
    Layers.removeRepeatsAfter previous images ⊆ images := by
  induction images generalizing previous with
  | nil => exact List.nil_subset _
  | cons image rest inductionHypothesis =>
      rw [Layers.removeRepeatsAfter]
      split
      · exact List.subset_cons_of_subset _ (inductionHypothesis previous)
      · exact List.cons_subset_cons _ (inductionHypothesis _)

theorem removeInstant_subset
    (images : List Image) :
    Layers.removeInstant images ⊆ images := by
  unfold Layers.removeInstant
  extract_lets kept
  split
  · exact List.Subset.refl _
  · exact List.filter_sublist.subset

theorem compositePairs_drawsPlacement
    (compose : Compose)
    (x y : Int64)
    (destinations sources : List Image) :
    DrawsPlacement destinations (.ok (Layers.compositePairs compose x y destinations sources)) := by
  refine .ok fun made mem => ?_
  obtain ⟨i, inside, rfl⟩ := List.mem_mapIdx.mp mem
  refine ⟨destinations[i], List.getElem_mem inside, ?_⟩
  split <;> rfl

theorem arrange_drawsPlacement
    (method : LayerMethod)
    (first : Image)
    (rest : List Image) :
    DrawsPlacement (first :: rest) (arrange method first rest) := by
  cases method with
  | flatten => exact .first rfl
  | merge => exact .first rfl
  | mosaic => exact .first rfl
  | coalesce => exact coalesceOnto_drawsPlacement _ _ _
  | removeDups => exact .of_subset (removeRepeatsAfter_subset _ _)
  | removeZero => exact .of_subset (removeInstant_subset _)
  | trimBounds => exact .map fun _ => rfl
  | _ => exact .error _

/-- Work on a list makes up no placement of its own. -/
theorem assemble_drawsPlacement
    (operands : List Image)
    (op : Assembly) :
    DrawsPlacement operands (assemble operands op) := by
  cases operands with
  | nil => exact .of_subset (List.nil_subset _)
  | cons first rest =>
      unfold assemble
      dsimp only
      cases op with
      | append vertical => exact .first rfl
      | smush offset vertical => exact .first rfl
      | coalesce => exact coalesceOnto_drawsPlacement _ _ _
      | combine space => exact .first rfl
      | composite compose x y =>
          unfold assembleFrom
          dsimp only
          split
          · exact .first rfl
          · exact .error _
      | compositeLayers compose x y split =>
          intro images made image mem
          obtain ⟨operand, given, same⟩ :=
            compositePairs_drawsPlacement _ _ _ _ _ images made image mem
          exact ⟨operand, List.mem_of_mem_take given, same⟩
      | evaluateSequence operator => exact .first rfl
      | layers method => exact arrange_drawsPlacement method first rest
      | lookup hald =>
          cases hald with
          | true => exact .error _
          | false =>
              unfold assembleFrom
              dsimp only
              split
              · exact .first rfl
              · exact .error _
      | morph frames => exact morph_drawsPlacement _ _
      | remap colors dither => exact .map fun image => remap_placement image _
      | _ => exact .error _

end PixelEngine

/-! ## Images that are read -/

namespace ImageFiles

/-- Every image that is read has the initial placement. -/
def ReadsBare (result : Except EngineFault (List Image)) : Prop :=
  ∀ images, result = .ok images → ∀ image ∈ images, image.placement = default

namespace ReadsBare

theorem error
    (refusal : EngineFault) :
    ReadsBare (.error refusal) := by
  rintro _ ⟨⟩

theorem ok
    {images : List Image}
    (bare : ∀ image ∈ images, image.placement = default) :
    ReadsBare (.ok images) := by
  rintro _ ⟨⟩
  exact bare

theorem single
    {image : Image}
    (bare : image.placement = default) :
    ReadsBare (.ok [image]) :=
  ok (List.forall_mem_singleton.mpr bare)

end ReadsBare

theorem madeUp?_bare
    {request : ReadRequest}
    {image : Except EngineFault Image}
    (made : madeUp? request = some image) :
    ReadsBare (image.map fun image => [image]) := by
  obtain ⟨⟨scheme, rest⟩, -, chosen⟩ := Option.bind_eq_some_iff.mp made
  dsimp only at chosen
  have colored (color : Except EngineFault Color) :
      ReadsBare ((color.map fun color =>
        { Image.canvas (request.size.getD ⟨1, 1⟩) color with
          format := "XC", filename := request.source }).map fun image => [image]) := by
    cases color with
    | error refusal => exact .error _
    | ok color => exact .single rfl
  split at chosen
  · obtain rfl := Option.some.inj chosen
    exact colored _
  · obtain rfl := Option.some.inj chosen
    exact colored _
  · obtain rfl := Option.some.inj chosen
    exact .single rfl
  · cases chosen

theorem readFile_bare
    (disk : Disk)
    (ping : Bool)
    (path : String) :
    ReadsBare (readFile disk ping path) := by
  unfold readFile
  split
  · unfold pingFile
    extract_lets refused
    split
    · exact .single rfl
    · exact .error _
    · exact .error _
  · split
    · next content held =>
      cases content with
      | text content => exact .error _
      | frames frames =>
          refine .ok fun image mem => ?_
          obtain ⟨⟨frame, scene⟩, -, rfl⟩ := List.mem_map.mp mem
          rfl
    · exact .error _

/-- Files that are read one after the other give what each of them gives. -/
theorem mapM_bare
    {read : String → Except EngineFault (List Image)}
    (bare : ∀ path, ReadsBare (read path))
    (paths : List String) :
    ReadsBare ((paths.mapM read).map List.flatten) := by
  induction paths with
  | nil => exact .ok fun image mem => absurd mem List.not_mem_nil
  | cons path rest inductionHypothesis =>
      rw [List.mapM_cons]
      cases first : read path with
      | error refusal => exact .error _
      | ok images =>
          cases others : rest.mapM read with
          | error refusal => exact .error _
          | ok lists =>
              rw [others] at inductionHypothesis
              refine .ok ?_
              rw [List.flatten_cons, List.forall_mem_append]
              exact ⟨bare path images first, inductionHypothesis _ rfl⟩

theorem readDirectory_bare
    (disk : Disk)
    (ping : Bool)
    (path : String) :
    ReadsBare (readDirectory disk ping path) :=
  mapM_bare (readFile_bare disk ping) _

/-- A source gives images of the initial placement. -/
theorem read_bare
    (request : ReadRequest)
    (disk : Disk) :
    ReadsBare (read request disk) := by
  unfold read
  split
  · next image made => exact madeUp?_bare made
  · split
    · exact readDirectory_bare disk _ _
    · exact readFile_bare disk _ _

end ImageFiles

/-! ## Engines -/

/-- An engine hands placements on and makes up none. -/
structure Engine.HandsPlacementsOn {σ : Type} (engine : Engine σ) : Prop where
  /-- Images that are read have the initial placement. -/
  read : ∀ request world, ImageFiles.ReadsBare (engine.read request world).1
  /-- Work on one image keeps its placement. -/
  transform : ∀ image op world,
    PixelEngine.KeepsPlacement image (engine.transform image op world).1
  /-- Work on some images gives images with placements of theirs. -/
  assemble : ∀ operands op world,
    PixelEngine.DrawsPlacement operands (engine.assemble operands op world).1

theorem Engine.standard_handsPlacementsOn : Engine.standard.HandsPlacementsOn where
  read := ImageFiles.read_bare
  transform image op _ := PixelEngine.transform_keepsPlacement image op
  assemble operands op _ := PixelEngine.assemble_drawsPlacement operands op

end Darkroom
