import Darkroom.Engine.Pixel
import Darkroom.Proofs.Pixels.Raster
import Darkroom.Proofs.Session.Assembly
import Darkroom.Proofs.Session.Redrawing

/-!
# Channels separated and combined

Each selected channel of an image becomes a gray image, in the order of the channels.  Gray images
of one size are put together by their places in the list, and not by the channels that they were, so
that the channels come back to their places when only last ones are left out.

The channels of an image are separated into gray images, and gray images are combined into one.
One after the other rebuilds the image from its channels, whatever attributes the gray images take
up in between.
-/

namespace Darkroom

/-! ## Channels as gray images -/

/-- At its own size a bitmap stays as it is. -/
theorem Bitmap.raster_resize_self
    (b : Bitmap)
    (kernel : Resample.Kernel) :
    (b.resize b.size kernel).raster = b.raster := by
  have same : b.raster.resize b.size kernel = b.raster := if_pos rfl
  change (b.raster.resize b.size kernel).map b.layout.restrict = b.raster
  rw [same, b.map_restrict]

namespace Layers

/-- A channel of a bitmap as gray. -/
def plane (b : Bitmap) (k : Channel) : Bitmap :=
  .rgba (b.raster.map fun c => Color.gray (c.get k))

/-- The color of some values in the order of the channels; color channels that are left out are
zero, and alpha is full. -/
def ofValues (values : List UInt8) : Color :=
  (Channel.all.zip values).foldl (fun c (k, v) => c.put k v) Color.black

/-- The color at a place of gray rasters that are put together. -/
def stacked (rasters : List Raster) (x y : Nat) : Color :=
  (Channel.all.zip rasters).foldl (fun c (k, r) => c.put k (r.get x y).red) Color.black

theorem stacked_eq
    (rasters : List Raster)
    (x y : Nat) :
    stacked rasters x y = ofValues (rasters.map fun r => (r.get x y).red) := by
  rw [ofValues, List.zip_map_right, List.foldl_map]
  rfl

theorem separate_bitmaps
    (channels : ChannelSet)
    (image : Image) :
    (separate channels image).map Image.bitmap = channels.members.map (plane image.bitmap) := by
  rw [separate, List.map_map]
  rfl

/-- Planes put together give each pixel the values of the channels they are of, in order. -/
theorem raster_combine
    (space : Colorspace)
    {b : Bitmap}
    {channels : ChannelSet}
    {first : Image}
    {rest : List Image}
    (planes : (first :: rest).map Image.bitmap = channels.members.map (plane b)) :
    (combine space first rest).raster =
      b.raster.map fun c => ofValues (channels.members.map c.get) := by
  have size : first.size = b.size := by
    have member : first.bitmap ∈ channels.members.map (plane b) := by
      rw [← planes]
      exact List.mem_cons_self
    obtain ⟨k, -, same⟩ := List.mem_map.mp member
    exact (congrArg Bitmap.size same).symm
  have few : (first :: rest).length ≤ 4 := by
    have lengths := congrArg List.length planes
    rw [List.length_map, List.length_map] at lengths
    rw [lengths]
    exact List.length_filter_le _ Channel.all
  have frames : ((first :: rest).take 4).map
      (fun image => (image.bitmap.resize first.size Resample.nearest).raster) =
        channels.members.map fun k => (plane b k).raster := by
    rw [List.take_of_length_le few, size]
    calc (first :: rest).map (fun image => (image.bitmap.resize b.size Resample.nearest).raster)
        = ((first :: rest).map Image.bitmap).map
            (fun plane => (plane.resize b.size Resample.nearest).raster) := by
          rw [List.map_map]
          rfl
      _ = channels.members.map
            (fun k => ((plane b k).resize (plane b k).size Resample.nearest).raster) := by
          rw [planes, List.map_map]
          rfl
      _ = channels.members.map fun k => (plane b k).raster := by
          simp only [Bitmap.raster_resize_self]
  refine Raster.ext_get size fun x y inside => ?_
  have onCanvas : first.size.Contains x y := inside
  have inside : b.size.Contains x y := size ▸ onCanvas
  have values :
      (channels.members.map fun k => (plane b k).raster).map (fun r => (r.get x y).red) =
        channels.members.map (b.raster.get x y).get := by
    rw [List.map_map]
    refine List.map_congr_left fun k _ => ?_
    exact congrArg Color.red (Raster.get_map (fun c => Color.gray (c.get k)) inside)
  calc (combine space first rest).raster.get x y
      = (Raster.ofFn first.size (stacked (((first :: rest).take 4).map
          fun image => (image.bitmap.resize first.size Resample.nearest).raster))).get x y := rfl
    _ = stacked (channels.members.map fun k => (plane b k).raster) x y := by
        rw [Raster.get_ofFn onCanvas.1 onCanvas.2, frames]
    _ = ofValues (channels.members.map (b.raster.get x y).get) := by
        rw [stacked_eq, values]
    _ = (b.raster.map fun c => ofValues (channels.members.map c.get)).get x y :=
        (Raster.get_map (fun c => ofValues (channels.members.map c.get)) inside).symm

/-- All channels in order make the color. -/
theorem ofValues_full
    (c : Color) :
    ofValues (ChannelSet.full.members.map c.get) = c :=
  rfl

/-- The color with full coverage. -/
def solid (c : Color) : Color :=
  { c with alpha := 255 }

/-- The color channels in order make the color with full coverage. -/
theorem ofValues_rgb
    (c : Color) :
    ofValues (ChannelSet.rgb.members.map c.get) = solid c :=
  rfl

end Layers

/-! ## Command lines -/

namespace Session

/-- All images are combined into one. -/
theorem combine_goesOnWith
    {s : Session Disk}
    (whole : s.images.Whole)
    {first : Image}
    {rest : List Image}
    (operands : s.syncedImages = first :: rest) :
    GoesOnWith s.settings [Layers.combine s.settings.image.colorspace first rest]
      (s.apply .standard .list "-combine" none none) := by
  have named : ListOperator.named? (Invocation.of "-combine" none none).name = some .combine := rfl
  have decided : ListOperator.combine (s.syncAll.view .standard) s.syncAll.images
      (Invocation.of "-combine" none none) =
        .ok (.assemble (.combine s.settings.image.colorspace)) := rfl
  have assembled : Engine.standard.assemble s.syncedImages
      (.combine s.settings.image.colorspace) s.world =
        (.ok [Layers.combine s.settings.image.colorspace first rest], s.world) := by
    rw [operands]
    rfl
  have done := applyToList_eq_replaceAll .standard named whole
    (operands ▸ List.cons_ne_nil _ _) decided assembled
  change GoesOnWith _ _ (s.applyToList .standard "-combine" none none)
  rw [done]
  exact ⟨rfl, rfl, Reel.Whole.replaceAll _ _, toList_replaceAll _ _⟩

theorem parse_separate_combine :
    CommandStep.parse ["-separate", "-combine"] =
      [.apply (Catalog.bare "separate" .image) "-separate" [],
        .apply (Catalog.bare "combine" .list) "-combine" []] := by
  have first : CommandStep.next "-separate" ["-combine"] =
      (.apply (Catalog.bare "separate" .image) "-separate" [], ["-combine"]) := rfl
  have second : CommandStep.next "-combine" [] =
      (.apply (Catalog.bare "combine" .list) "-combine" [], []) := rfl
  rw [CommandStep.parse_cons, first, CommandStep.parse_cons, second, CommandStep.parse_nil]

/-- The channels of one image are separated and combined again. -/
theorem rastersAfter_separate_combine
    {s : Session Disk}
    (whole : s.images.Whole)
    {image : Image}
    (only : s.images.toList = [image])
    (selected : s.settings.image.channels.members ≠ []) :
    s.rastersAfter ["-separate", "-combine"] =
      [image.raster.map
        fun c => Layers.ofValues (s.settings.image.channels.members.map c.get)] := by
  have nonempty : s.images.isEmpty = false := by
    rw [whole.isEmpty_toList, only]
    rfl
  let channels := s.settings.image.channels
  let planes := Layers.separate channels (s.settings.image.sync image)
  have separated : GoesOnWith s.settings planes
      (s.perform .standard (.apply (Catalog.bare "separate" .image) "-separate" [])) := by
    have done := separate_goesOnWith whole nonempty
    rwa [only, List.flatMap_singleton] at done
  -- The gray images take up the settings, but not in their pixels.
  have bitmaps : (planes.map s.settings.image.sync).map Image.bitmap =
      channels.members.map (Layers.plane image.bitmap) := by
    rw [List.map_map]
    exact Layers.separate_bitmaps channels (s.settings.image.sync image)
  obtain ⟨first, rest, operands⟩ :
      ∃ first rest, planes.map s.settings.image.sync = first :: rest := by
    refine List.exists_cons_of_ne_nil fun none => selected ?_
    rw [none] at bitmaps
    exact List.map_eq_nil_iff.mp bitmaps.symm
  have combined : (s.run .standard ["-separate", "-combine"]).2.images.toList =
      [Layers.combine s.settings.image.colorspace first rest] := by
    refine run_images_of_steps parse_separate_combine separated fun t same tWhole left => ?_
    have found : t.syncedImages = first :: rest := by rw [syncedImages, left, same, operands]
    rw [← same]
    exact ⟨t.settings, combine_goesOnWith tWhole found⟩
  rw [operands] at bitmaps
  rw [rastersAfter, bitmapsAfter, combined]
  exact congrArg (fun r => [r]) (Layers.raster_combine _ bitmaps)

/-- Separated into all four channels and combined, an image has the pixels that it had; separated
into its color channels, it has their colors with full coverage. -/
theorem combine_undoes_separate
    (image : Image)
    (space : Colorspace) :
    (∃ planes combined,
        PixelEngine.transform image (.separate .full) = .ok (.parts planes) ∧ planes.length = 4 ∧
        PixelEngine.assemble planes (.combine space) = .ok [combined] ∧
        combined.raster = image.raster) ∧
      (∃ planes combined,
        PixelEngine.transform image (.separate .rgb) = .ok (.parts planes) ∧ planes.length = 3 ∧
        PixelEngine.assemble planes (.combine space) = .ok [combined] ∧
        combined.raster = image.raster.map Layers.solid) ∧
      ∀ s : Session Disk, s.images.Whole → s.images.toList = [image] →
        (s.settings.image.channels = .full →
          s.rastersAfter ["-separate", "-combine"] = [image.raster]) ∧
        (s.settings.image.channels = .rgb →
          s.rastersAfter ["-separate", "-combine"] = [image.raster.map Layers.solid]) := by
  have full : (image.raster.map fun c => Layers.ofValues (ChannelSet.full.members.map c.get)) =
      image.raster := Raster.map_eq_self fun c _ => Layers.ofValues_full c
  have rgb : (image.raster.map fun c => Layers.ofValues (ChannelSet.rgb.members.map c.get)) =
      image.raster.map Layers.solid :=
    congrArg (Raster.map · image.raster) (funext Layers.ofValues_rgb)
  refine ⟨⟨Layers.separate .full image, _, rfl, rfl, rfl, ?_⟩,
    ⟨Layers.separate .rgb image, _, rfl, rfl, rfl, ?_⟩, fun s whole only => ⟨?_, ?_⟩⟩
  · exact (Layers.raster_combine space (Layers.separate_bitmaps .full image)).trans full
  · exact (Layers.raster_combine space (Layers.separate_bitmaps .rgb image)).trans rgb
  · intro selected
    rw [rastersAfter_separate_combine whole only (by rw [selected]; decide), selected, full]
  · intro selected
    rw [rastersAfter_separate_combine whole only (by rw [selected]; decide), selected, rgb]

/-- A gray image that shows through, separated and combined under the settings of the start. -/
theorem gray_image_separated_and_combined :
    let gray : Image :=
      { bitmap := Bitmap.of .la8 (Raster.ofFn ⟨3, 2⟩ fun x y => ⟨.ofNat (9 * x + y), 0, 0, 40⟩) }
    let s : Session Disk := { images := .ofList [gray], world := ⟨[]⟩ }
    s.images.Whole ∧ s.images.toList = [gray] ∧ s.settings.image.channels = .full ∧
      s.rastersAfter ["-separate", "-combine"] = [gray.raster] := by
  intro gray s
  have whole : s.images.Whole := .ofList _
  obtain ⟨-, -, carriedOut⟩ := combine_undoes_separate gray .srgb
  exact ⟨whole, rfl, rfl, (carriedOut s whole rfl).1 rfl⟩

end Session

end Darkroom
