import Darkroom.Proofs.Pixels.Palette
import Darkroom.Proofs.Session.Assembly

/-!
# Remapping

Images are mapped onto the colors of a reference, or all images of a list onto one palette of their
most frequent colors.  Either is a projection: what is on the palette stays as it is.
-/

namespace Darkroom

/-- Images in any order are mapped onto the palette that they share. -/
theorem PixelEngine.assemble_remap
    {images others : List Image}
    (perm : images.Perm others)
    (limit : UInt64)
    (dither : Bool) :
    assemble others (.remap limit dither) =
      .ok (others.map (Palette.remap
        (Palette.shared (images.map Image.raster) limit.toNat))) := by
  rw [← Palette.foremost_eq_shared (perm.map Image.raster)
    (Palette.histogram_isHistogram (others.map Image.raster))]
  cases others <;> rfl

namespace Session

/-- Mapped onto a reference, an image has its nearest colors, unless the reference is without pixels
and the image stays; and mapped again it stays as it is.  Mapped onto itself, it keeps its colors.
The images of a list share a palette of their most frequent colors, whatever their order and that of
counting, and keep their colors when there are few enough. -/
theorem remap_projects
    (image reference : Image)
    (images : List Image)
    (limit : UInt64)
    (dither : Bool) :
    (∃ out,
      PixelEngine.transform image (.remap reference dither) = .ok (.mutated out) ∧
      (reference.raster.toList ≠ [] →
        Palette.IsRemapped reference.raster.toList image out) ∧
      (reference.raster.toList = [] → out = image) ∧
      PixelEngine.transform out (.remap reference dither) = .ok (.mutated out)) ∧
    (∃ out,
      PixelEngine.transform reference (.remap reference dither) = .ok (.mutated out) ∧
      out.raster = reference.raster) ∧
    ∃ palette,
      Palette.IsShared (Palette.pixelsOf (images.map Image.raster)) limit.toNat palette ∧
      (∀ others : List Image, images.Perm others →
        PixelEngine.assemble others (.remap limit dither) =
          .ok (others.map (Palette.remap palette)) ∧
        ∀ table, Palette.IsHistogram (Palette.pixelsOf (others.map Image.raster)) table →
          Palette.foremost table limit.toNat = palette) ∧
      ((Palette.pixelsOf (images.map Image.raster)).toFinset.card ≤ limit.toNat →
        ∀ image ∈ images, (Palette.remap palette image).raster = image.raster) ∧
      ∀ s : Session Disk, s.images.Whole → s.syncedImages = images → images ≠ [] →
        s.settings.quantizing.colorCount = limit →
        ∃ list : Reel Image, list.toList = images.map (Palette.remap palette) ∧
          s.applyToList .standard "+remap" none none = (none, { s with images := list }) := by
  refine ⟨⟨_, rfl, fun pixels => ?_, fun blank => ?_, ?_⟩, ⟨_, rfl, ?_⟩, ?_⟩
  · exact (Palette.remap_isRemapped (Palette.ofRaster_ne_nil pixels) image).of_ofRaster
  · exact Palette.remap_of_blank blank image
  · exact congrArg (fun out => Except.ok (Outcome.mutated out)) (Palette.remap_remap _ image)
  · exact Palette.raster_remap_of_subset fun c member => List.mem_eraseDups.mpr member
  have isShared := Palette.shared_isShared (images.map Image.raster) limit.toNat
  refine ⟨_, isShared, fun others perm => ⟨PixelEngine.assemble_remap perm limit dither, ?_⟩,
    fun few image member => ?_, fun s whole operands nonempty chosen => ?_⟩
  · exact fun table isHistogram =>
      Palette.foremost_eq_shared (perm.map Image.raster) isHistogram limit.toNat
  · refine Palette.raster_remap_of_subset fun c found => isShared.subset_of_few few ?_
    exact List.mem_flatMap.mpr ⟨image.raster, List.mem_map_of_mem member, found⟩
  · have named : ListOperator.named? (Invocation.of "+remap" none none).name =
        some ListOperator.remap := rfl
    have decided : ListOperator.remap (s.syncAll.view .standard) s.syncAll.images
        (Invocation.of "+remap" none none) =
          .ok (.assemble (.remap limit s.settings.quantizing.dither)) := by
      rw [← chosen]
      rfl
    subst operands
    exact applyToList_of_assembled .standard named whole nonempty decided
      (congrArg (·, s.world) (PixelEngine.assemble_remap (.refl _) limit _))

/-- An image of three colors on a reference of two, and on a palette of three. -/
theorem remap_three_colors :
    let image (colors : List Color) : Image :=
      { bitmap := Bitmap.rgba (Raster.ofList ⟨3, 1⟩ colors) }
    let striped := image [⟨255, 0, 0, 255⟩, ⟨250, 0, 0, 255⟩, ⟨0, 0, 255, 255⟩]
    let reference := image [⟨255, 0, 0, 255⟩, ⟨0, 0, 0, 255⟩, ⟨0, 0, 0, 255⟩]
    let s : Session Disk :=
      { images := .ofList [striped], settings := { quantizing := { colorCount := 3 } },
        world := ⟨[]⟩ }
    reference.raster.toList ≠ [] ∧
      (Palette.pixelsOf [striped.raster]).toFinset.card ≤ (3 : UInt64).toNat ∧
      s.images.Whole ∧ s.syncedImages = [striped] ∧ s.settings.quantizing.colorCount = 3 ∧
      (∃ out,
        PixelEngine.transform striped (.remap reference false) = .ok (.mutated out) ∧
        Palette.IsRemapped reference.raster.toList striped out) ∧
      ∃ palette,
        Palette.IsShared (Palette.pixelsOf [striped.raster]) 3 palette ∧
        (Palette.remap palette striped).raster = striped.raster ∧
        ∃ list : Reel Image, list.toList = [Palette.remap palette striped] ∧
          s.applyToList .standard "+remap" none none = (none, { s with images := list }) := by
  intro image striped reference s
  have pixels : reference.raster.toList ≠ [] := by decide
  have few : (Palette.pixelsOf [striped.raster]).toFinset.card ≤ (3 : UInt64).toNat := by
    decide
  have whole : s.images.Whole := .ofList _
  have operands : s.syncedImages = [striped] := rfl
  obtain ⟨⟨out, transformed, isRemapped, -⟩, -, palette, isShared, -, stays, carriedOut⟩ :=
    remap_projects striped reference [striped] 3 false
  exact ⟨pixels, few, whole, operands, rfl, ⟨out, transformed, isRemapped pixels⟩, palette, isShared,
    stays few striped (List.mem_singleton_self striped),
    carriedOut s whole operands (List.cons_ne_nil _ _) rfl⟩

/-- Without pixels a reference changes nothing, so that there are colors that it does not have; and
a gray image that is mapped onto itself is no longer kept as gray. -/
theorem remap_blank_reference :
    let dot : Image := { bitmap := Bitmap.rgba (Raster.fill ⟨1, 1⟩ Color.white) }
    let blank : Image := { bitmap := Bitmap.rgba (Raster.fill ⟨0, 1⟩ Color.white) }
    let gray : Image := { bitmap := Bitmap.of .l8 (Raster.fill ⟨1, 1⟩ Color.white) }
    (∃ out,
      PixelEngine.transform dot (.remap blank false) = .ok (.mutated out) ∧
      out.raster.get 0 0 ∉ blank.raster.toList) ∧
    ∃ out,
      PixelEngine.transform gray (.remap gray false) = .ok (.mutated out) ∧ out ≠ gray := by
  intro dot blank gray
  refine ⟨⟨_, rfl, ?_⟩, ⟨_, rfl, fun same => ?_⟩⟩
  · decide
  · have layouts := congrArg (·.bitmap.layout) same
    revert layouts
    decide +kernel

end Session
end Darkroom
