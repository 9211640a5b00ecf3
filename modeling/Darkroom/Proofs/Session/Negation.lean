import Darkroom.Engine.Pixel
import Darkroom.Proofs.Pixels.Raster
import Darkroom.Proofs.Session.Redrawing

/-!
# Negatives

The negative of an image inverts the color channels of every pixel in the layout of the image, in
which it fits.  Where the alpha is inverted too, the image is brought into color and alpha; either
way each pixel becomes the negative of what it was.

A negative of a negative has the pixels of the image that it was made of, in whatever layout they
are kept in between, and the work leaves everything else about the image alone.  So it is with the
options that negate all images of a session, whichever channels are selected.
-/

namespace Darkroom

/-! ## Negatives of colors and bitmaps -/

/-- What keeps colors in a layout is not cut down. -/
theorem Bitmap.raster_map_of_fits
    {f : Color → Color}
    {b : Bitmap}
    (fits : ∀ c, b.layout.restrict c = c → b.layout.restrict (f c) = f c) :
    (b.map f).raster = b.raster.map f := by
  refine Raster.ext_pixels rfl ?_
  change (b.raster.pixels.map f).map b.layout.restrict = b.raster.pixels.map f
  rw [Array.map_map]
  exact Array.map_congr_left fun c member => fits c (b.conforms c member)

namespace PixelEngine

/-- A color with its color channels inverted, and its alpha too where that is asked for. -/
def negative (alpha : Bool) (c : Color) : Color :=
  { invert c with alpha := if alpha then 255 - c.alpha else c.alpha }

/-- Whether the alpha is inverted with the colors: it is selected, but not everything is. -/
def invertsAlpha (spareAlpha : Bool) (channels : ChannelSet) : Bool :=
  !spareAlpha && channels.alpha && channels != .full

/-- A bitmap with every pixel made negative. -/
def negated (alpha : Bool) (b : Bitmap) : Bitmap :=
  if alpha then .rgba ((b.map invert).raster.map fun c => { c with alpha := 255 - c.alpha })
  else b.map invert

theorem negate_bitmap
    (spareAlpha : Bool)
    (image : Image) :
    (negate spareAlpha image).bitmap =
      negated (invertsAlpha spareAlpha image.channels) image.bitmap := by
  unfold negate negated invertsAlpha
  dsimp only
  split <;> rfl

/-- An inverted color fits every layout that the color fits. -/
theorem restrict_invert
    {layout : Layout}
    {c : Color}
    (fits : layout.restrict c = c) :
    layout.restrict (invert c) = invert c := by
  obtain ⟨red, green, blue, alpha⟩ := c
  cases layout with
  | rgba8 => rfl
  | rgb8 =>
      simp only [Layout.restrict, Color.mk.injEq] at fits
      simp [Layout.restrict, invert, fits.2.2.2]
  | l8 =>
      simp only [Layout.restrict, Color.gray, Color.mk.injEq] at fits
      obtain ⟨-, rfl, rfl, rfl⟩ := fits
      rfl
  | la8 =>
      simp only [Layout.restrict, Color.mk.injEq] at fits
      obtain ⟨-, rfl, rfl, -⟩ := fits
      rfl

/-- Every pixel becomes its negative, whatever the layout. -/
theorem raster_negated
    (alpha : Bool)
    (b : Bitmap) :
    (negated alpha b).raster = b.raster.map (negative alpha) := by
  have inverted : (b.map invert).raster = b.raster.map invert :=
    Bitmap.raster_map_of_fits fun c fits => restrict_invert fits
  cases alpha with
  | false => exact inverted
  | true =>
      change (b.map invert).raster.map _ = _
      rw [inverted, Raster.map_map]
      rfl

/-- A negative made negative is what it was. -/
theorem negative_negative
    (alpha : Bool)
    (c : Color) :
    negative alpha (negative alpha c) = c := by
  have back (v : UInt8) : 255 - (255 - v) = v := by grind
  obtain ⟨red, green, blue, coverage⟩ := c
  cases alpha <;> simp [negative, invert, back]

end PixelEngine

open PixelEngine in
/-- Two negatives restore every pixel. -/
theorem Raster.map_negative_negative
    (alpha : Bool)
    (r : Raster) :
    (r.map (negative alpha)).map (negative alpha) = r := by
  rw [Raster.map_map]
  exact Raster.map_eq_self fun c _ => negative_negative alpha c

/-! ## Negated images -/

/-- An image after work that has brought back its pixels.  They may be kept in another layout. -/
structure Image.IsRestored (before after : Image) : Prop where
  /-- Every place has its color. -/
  raster : after.raster = before.raster
  /-- The size is the same. -/
  size : after.size = before.size
  /-- The page is the same. -/
  page : after.page = before.page
  /-- The properties are the same. -/
  properties : after.properties = before.properties
  /-- The image counts as changed, and that is all. -/
  others : after = before.withBitmap after.bitmap

namespace PixelEngine

/-- A negative is the same image with another bitmap. -/
theorem negate_eq
    (spareAlpha : Bool)
    (image : Image) :
    negate spareAlpha image =
      image.withBitmap (negated (invertsAlpha spareAlpha image.channels) image.bitmap) := by
  rw [← negate_bitmap]
  unfold negate
  dsimp only
  split <;> rfl

/-- The second negative is made of another bitmap, but under the same selection of channels. -/
theorem negate_negate_isRestored
    (spareAlpha : Bool)
    (image : Image) :
    image.IsRestored (negate spareAlpha (negate spareAlpha image)) := by
  have raster : (negate spareAlpha (negate spareAlpha image)).raster = image.raster := by
    simp only [negate_eq]
    change (negated _ (negated _ image.bitmap)).raster = image.bitmap.raster
    rw [raster_negated, raster_negated]
    exact image.bitmap.raster.map_negative_negative _
  have others : negate spareAlpha (negate spareAlpha image) =
      image.withBitmap (negate spareAlpha (negate spareAlpha image)).bitmap := by
    simp only [negate_eq]
    rfl
  exact {
    raster
    size := congrArg Raster.size raster
    page := (congrArg Image.page others).trans rfl
    properties := (congrArg Image.properties others).trans rfl
    others }

end PixelEngine

namespace Session

open PixelEngine

/-- A negative of an image in line with the settings is in line with them. -/
theorem sync_negate
    (settings : ImageSettings)
    (spareAlpha : Bool)
    (image : Image) :
    settings.sync (negate spareAlpha (settings.sync image)) =
      negate spareAlpha (settings.sync image) := by
  have kept (bitmap : Bitmap) : settings.sync ((settings.sync image).withBitmap bitmap) =
      (settings.sync (settings.sync image)).withBitmap bitmap := rfl
  rw [negate_eq, kept, settings.sync_sync]

/-- An option without arguments that is written twice is two steps. -/
theorem parse_twice
    {option : String}
    {step : CommandStep}
    (first : CommandStep.next option [option] = (step, [option]))
    (last : CommandStep.next option [] = (step, [])) :
    CommandStep.parse [option, option] = [step, step] := by
  rw [CommandStep.parse_cons, first, CommandStep.parse_cons, last, CommandStep.parse_nil]

section Options

variable {option : String} (named : (Invocation.of option none none).name = "negate")
  {s : Session Disk} (whole : s.images.Whole)

include named whole

/-- The option with either sign negates every image; taken back, it spares the alpha. -/
theorem negate_goesOnWith :
    GoesOnWith s.settings
      (s.images.toList.map fun image =>
        negate (!(Invocation.of option none none).normal) (s.settings.image.sync image))
      (s.perform .standard (.apply (Catalog.bare "negate" .image) option [])) := by
  have operator : ImageOperator.named? (Invocation.of option none none).name = some .negate := by
    rw [named]
    rfl
  have other : (Invocation.of option none none).name ∉ ImageOperator.counting := by
    rw [named]
    decide
  rw [List.map_eq_flatMap]
  refine perform_goesOnWith rfl operator other whole fun image => ?_
  have transformed : PixelEngine.transform (s.given image)
      (.negate (!(Invocation.of option none none).normal)) =
        .ok (.mutated (negate (!(Invocation.of option none none).normal) (s.given image))) := rfl
  exact visit_made_of_transform rfl transformed

/-- Two negatives of one sign restore every image, once it has taken up the settings. -/
theorem run_negate_negate
    (steps : CommandStep.parse [option, option] =
      [.apply (Catalog.bare "negate" .image) option [],
        .apply (Catalog.bare "negate" .image) option []]) :
    List.Forall₂ Image.IsRestored (s.images.toList.map s.settings.image.sync)
      (s.run .standard [option, option]).2.images.toList := by
  let negative : Image → Image := negate (!(Invocation.of option none none).normal)
  have again (t : Session Disk) (same : t.settings = s.settings) (tWhole : t.images.Whole)
      (left : t.images.toList =
        s.images.toList.map fun image => negative (s.settings.image.sync image)) :
      GoesOnWith t.settings
        (s.images.toList.map fun image => negative (negative (s.settings.image.sync image)))
        (t.perform .standard (.apply (Catalog.bare "negate" .image) option [])) := by
    have second := negate_goesOnWith named tWhole
    rw [left, List.map_map] at second
    simpa only [Function.comp_def, same, negative, sync_negate] using second
  have twice := run_images_of_steps steps (negate_goesOnWith named whole)
    fun t same tWhole left => ⟨t.settings, again t same tWhole left⟩
  rw [twice, List.forall₂_map_left_iff, List.forall₂_map_right_iff]
  exact List.forall₂_same.mpr fun image _ => negate_negate_isRestored _ _

end Options

/-- A negative made negative again is the image that it was made of, whatever its layout and the
selected channels, and whether the alpha is spared or not.  So two options that negate, with either
sign, bring back every image of a session as it has taken up the settings. -/
theorem negative_of_negative_restores
    (image : Image)
    (spareAlpha : Bool) :
    (∃ once twice,
      PixelEngine.transform image (.negate spareAlpha) = .ok (.mutated once) ∧
      PixelEngine.transform once (.negate spareAlpha) = .ok (.mutated twice) ∧
      image.IsRestored twice) ∧
    ∀ s : Session Disk, s.images.Whole → ∀ option ∈ ["-negate", "+negate"],
      List.Forall₂ Image.IsRestored (s.images.toList.map s.settings.image.sync)
        (s.run .standard [option, option]).2.images.toList := by
  refine ⟨⟨_, _, rfl, rfl, negate_negate_isRestored spareAlpha image⟩, fun s whole => ?_⟩
  simp only [List.forall_mem_cons]
  exact ⟨run_negate_negate rfl whole (parse_twice rfl rfl),
    run_negate_negate rfl whole (parse_twice rfl rfl), List.forall_mem_nil _⟩

/-- A gray image that shows through is negated in its alpha too, for which it is kept in color. -/
theorem translucent_gray_restored :
    let gray : Image :=
      { bitmap := Bitmap.of .la8 (Raster.ofFn ⟨3, 2⟩ fun x y => ⟨.ofNat (9 * x + y), 0, 0, 40⟩)
        page := ⟨8, 8, -1, 3⟩ }
    let s : Session Disk :=
      { images := .ofList [gray], world := ⟨[]⟩
        settings := { image := { channels := ⟨true, false, false, true⟩ } } }
    s.images.Whole ∧ "-negate" ∈ ["-negate", "+negate"] ∧
      (negate false (s.settings.image.sync gray)).bitmap.layout = .rgba8 ∧
      List.Forall₂ Image.IsRestored [s.settings.image.sync gray]
        (s.run .standard ["-negate", "-negate"]).2.images.toList := by
  intro gray s
  have whole : s.images.Whole := .ofList _
  have signed : "-negate" ∈ ["-negate", "+negate"] := by decide
  obtain ⟨-, restored⟩ := negative_of_negative_restores gray false
  exact ⟨whole, signed, rfl, restored s whole "-negate" signed⟩

end Session

end Darkroom
