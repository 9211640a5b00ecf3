import Darkroom.Proofs.Color.Levels
import Darkroom.Proofs.Pixels.Values
import Darkroom.Proofs.Session.Values

/-!
# Colors that are left

A table on channel values leaves no more colors of an opaque raster than there are triples of its
values, and of the raster with every opaque color exactly as many.  In each channel that it maps it
leaves no more values than it has, and when it leaves those as they are, it changes no pixel a
second time.

The option that reduces colors to a number gives each channel as many levels as the least cube with
so many cells has on a side.  Images without transparency are left with no more colors than that
cube has cells, and some with as many.  So the number asked for is kept just when it is the number
of cells of a cube with at least two levels, or no image can have more colors.  The option that asks
for a number of levels itself keeps that number, and what it has made it leaves as it is.
-/

namespace Darkroom

/-! ## Colors of some values -/

/-- The colors without transparency that are made of some values. -/
def Color.ofValues (values : Finset UInt8) : Finset Color :=
  (values ×ˢ values ×ˢ values).image fun (r, g, b) => ⟨r, g, b, 255⟩

namespace Color

theorem mem_ofValues_iff
    {values : Finset UInt8}
    {c : Color} :
    c ∈ ofValues values ↔
      c.red ∈ values ∧ c.green ∈ values ∧ c.blue ∈ values ∧ c.alpha = 255 := by
  simp only [ofValues, Finset.mem_image, Finset.mem_product, Prod.exists]
  constructor
  · rintro ⟨r, g, b, ⟨red, green, blue⟩, rfl⟩
    exact ⟨red, green, blue, rfl⟩
  · rintro ⟨red, green, blue, solid⟩
    exact ⟨_, _, _, ⟨red, green, blue⟩, by rw [← solid]⟩

/-- There are as many of them as triples of the values. -/
theorem card_ofValues
    (values : Finset UInt8) :
    (ofValues values).card = values.card ^ 3 := by
  have injective : Function.Injective
      fun triple : UInt8 × UInt8 × UInt8 => (⟨triple.1, triple.2.1, triple.2.2, 255⟩ : Color) := by
    rintro ⟨r, g, b⟩ ⟨r', g', b'⟩ same
    injection same with red green blue
    exact Prod.ext red (Prod.ext green blue)
  rw [ofValues, Finset.card_image_of_injective _ injective, Finset.card_product,
    Finset.card_product]
  ring

/-- A table takes the colors of all values to the colors of its values. -/
theorem image_ofValues_univ
    (f : UInt8 → UInt8) :
    (ofValues .univ).image (mapChannels Channel.colors f) = ofValues (Finset.univ.image f) := by
  ext c
  simp only [Finset.mem_image, mem_ofValues_iff, Finset.mem_univ, true_and]
  constructor
  · rintro ⟨d, solid, rfl⟩
    exact ⟨⟨_, rfl⟩, ⟨_, rfl⟩, ⟨_, rfl⟩, solid⟩
  · rintro ⟨⟨r, red⟩, ⟨g, green⟩, ⟨b, blue⟩, solid⟩
    refine ⟨⟨r, g, b, 255⟩, rfl, ?_⟩
    change (⟨f r, f g, f b, 255⟩ : Color) = c
    rw [red, green, blue, ← solid]

end Color

namespace Raster

/-- The colors that occur in a raster. -/
def colors (r : Raster) : Finset Color :=
  r.toList.toFinset

theorem mem_colors_iff
    {r : Raster}
    {c : Color} :
    c ∈ r.colors ↔ c ∈ r.pixels := by
  rw [colors, List.mem_toFinset, toList, Array.mem_toList_iff]

theorem colors_map
    (f : Color → Color)
    (r : Raster) :
    (r.map f).colors = r.colors.image f := by
  ext c
  simp only [Finset.mem_image, mem_colors_iff, map, Array.mem_map]

/-- Opaque colors are made of some values. -/
theorem colors_subset_ofValues
    {r : Raster}
    (solid : ∀ c ∈ r.pixels, c.alpha = 255) :
    r.colors ⊆ Color.ofValues .univ := by
  intro c member
  simp only [Color.mem_ofValues_iff, Finset.mem_univ, true_and]
  exact solid c (mem_colors_iff.mp member)

/-- Of an opaque raster a table leaves no more colors than triples of its values. -/
theorem card_colors_map_le
    {r : Raster}
    (solid : ∀ c ∈ r.pixels, c.alpha = 255)
    (f : UInt8 → UInt8) :
    (r.map (Color.mapChannels Channel.colors f)).colors.card ≤
      (Finset.univ.image f).card ^ 3 := by
  rw [colors_map, ← Color.card_ofValues, ← Color.image_ofValues_univ]
  exact Finset.card_le_card (Finset.image_subset_image (colors_subset_ofValues solid))

/-! ## Every color -/

/-- What holds of the colors at all places holds of all colors of the raster. -/
theorem forall_mem_ofFn
    {size : Size}
    {f : Nat → Nat → Color}
    {property : Color → Prop}
    (each : ∀ x y, property (f x y)) :
    ∀ c ∈ (ofFn size f).pixels, property c := by
  intro c member
  obtain ⟨place, rfl⟩ := Array.mem_ofFn.mp member
  exact each _ _

/-- The raster of every opaque color: red across, green and blue down. -/
def spectrum : Raster :=
  .ofFn ⟨256, 65536⟩ fun x y => ⟨.ofNat x, .ofNat (y / 256), .ofNat (y % 256), 255⟩

theorem alpha_spectrum : ∀ c ∈ spectrum.pixels, c.alpha = 255 := by
  unfold spectrum
  exact forall_mem_ofFn fun _ _ => rfl

theorem mem_spectrum
    {c : Color}
    (solid : c.alpha = 255) :
    c ∈ spectrum.pixels := by
  have red_lt := c.red.toNat_lt
  have green_lt := c.green.toNat_lt
  have blue_lt := c.blue.toNat_lt
  have inside : (⟨256, 65536⟩ : Size).Contains c.red.toNat (256 * c.green.toNat + c.blue.toNat) :=
    ⟨red_lt, show _ < 65536 by omega⟩
  have row : (256 * c.green.toNat + c.blue.toNat) / 256 = c.green.toNat := by omega
  have column : (256 * c.green.toNat + c.blue.toNat) % 256 = c.blue.toNat := by omega
  have here : spectrum.get c.red.toNat (256 * c.green.toNat + c.blue.toNat) = c := by
    rw [spectrum, get_ofFn inside.1 inside.2, row, column, UInt8.ofNat_toNat, UInt8.ofNat_toNat,
      UInt8.ofNat_toNat, ← solid]
  exact here ▸ get_mem inside

theorem colors_spectrum : spectrum.colors = Color.ofValues .univ := by
  ext c
  rw [mem_colors_iff, Color.mem_ofValues_iff]
  simp only [Finset.mem_univ, true_and]
  exact ⟨alpha_spectrum c, mem_spectrum⟩

/-- Of the raster of every opaque color a table leaves all triples of its values. -/
theorem card_colors_map_spectrum
    (f : UInt8 → UInt8) :
    (spectrum.map (Color.mapChannels Channel.colors f)).colors.card =
      (Finset.univ.image f).card ^ 3 := by
  rw [colors_map, colors_spectrum, Color.image_ofValues_univ, Color.card_ofValues]

end Raster

/-! ## Values that are left -/

/-- The values of a channel that occur in a raster. -/
def Raster.values (r : Raster) (k : Channel) : Finset UInt8 :=
  r.colors.image (·.get k)

/-- A raster with some channels mapped by a table that has a number of levels. -/
structure Raster.IsPosterized (channels : Channel → Prop) [DecidablePred channels] (levels : Nat)
    (f : UInt8 → UInt8) (before after : Raster) : Prop where
  /-- These channels are mapped and the others keep their value. -/
  maps : MapsValues channels f before after
  /-- A mapped channel has no more values than there are levels, at least two. -/
  few : ∀ k, channels k → (after.values k).card ≤ max levels 2

/-- A table that changes nothing a second time changes no color a second time. -/
theorem Color.mapChannels_mapChannels
    {channels : List Channel}
    (nodup : channels.Nodup)
    {f : UInt8 → UInt8}
    (idempotent : ∀ v, f (f v) = f v)
    (c : Color) :
    (c.mapChannels channels f).mapChannels channels f = c.mapChannels channels f := by
  refine Color.ext_get fun k => ?_
  rw [get_mapChannels nodup, get_mapChannels nodup]
  split
  · exact idempotent (c.get k)
  · rfl

namespace Image

variable {f : UInt8 → UInt8} {levels : Nat} (image : Image) (posterizes : Tone.Posterizes levels f)
  (r : Raster)

include posterizes

/-- Mapped by a table with levels a raster is posterized. -/
theorem isPosterized_map :
    Raster.IsPosterized image.channels.Maps levels f r
      (r.map (Color.mapChannels image.valueChannels f)) where
  maps := Raster.mapsValues_map image f r
  few k maps := by
    refine (Finset.card_le_card ?_).trans posterizes.few
    intro value member
    rw [Raster.values, Raster.colors_map, Finset.image_image] at member
    obtain ⟨c, -, rfl⟩ := Finset.mem_image.mp member
    rw [Function.comp_apply, Color.get_mapChannels image.nodup_valueChannels,
      if_pos (mem_valueChannels_iff.mpr maps)]
    exact Finset.mem_image_of_mem f (Finset.mem_univ _)

/-- Mapped a second time it stays as it is. -/
theorem map_map_of_posterizes :
    (r.map (Color.mapChannels image.valueChannels f)).map
        (Color.mapChannels image.valueChannels f) =
      r.map (Color.mapChannels image.valueChannels f) := by
  rw [Raster.map_map]
  congr 1
  funext c
  exact Color.mapChannels_mapChannels image.nodup_valueChannels posterizes.idempotent c

end Image

/-! ## Numbers of colors -/

/-- A raster of the same size with no more colors than this. -/
structure Raster.IsReducedTo (limit : Nat) (before after : Raster) : Prop where
  /-- The size is the same. -/
  size : after.size = before.size
  /-- So many colors are left at most. -/
  few : after.colors.card ≤ limit

/-- Two rasters are made of one with the same channels mapped by the same table. -/
theorem Raster.MapsValues.unique
    {channels : Channel → Prop}
    [DecidablePred channels]
    {f : UInt8 → UInt8}
    {before after after' : Raster}
    (mapped : MapsValues channels f before after)
    (mapped' : MapsValues channels f before after') :
    after = after' := by
  refine Raster.ext_get (mapped.size.trans mapped'.size.symm) fun x y inside => ?_
  rw [mapped.size] at inside
  exact Color.ext_get fun k => (mapped.values x y inside k).trans (mapped'.values x y inside k).symm

/-- When nothing or all was selected, the colors are mapped and the alpha is kept. -/
theorem Raster.MapsValues.eq_map
    {f : UInt8 → UInt8}
    {before after : Raster}
    (mapped : MapsValues ChannelSet.full.Maps f before after) :
    after = before.map (Color.mapChannels Channel.colors f) :=
  mapped.unique (Raster.mapsValues_map default f before)

namespace Session

/-- The reduction of colors redraws every image by its table. -/
theorem redraws_colors
    {text : String}
    {count : UInt64}
    (number : Invocation.wordOf Integer.word64? text = .ok count)
    (some : count ≠ 0)
    (settings : Settings) :
    ∃ change, Redraws settings change (.apply (Catalog.one "colors" .image) "-colors" [text]) ∧
      ∀ b, Raster.MapsValues settings.image.channels.Maps (Tone.reduction count) b.raster
        (change b).raster := by
  have named : ImageOperator.named? (Invocation.of "-colors" (.some text) none).name =
      .some .colors := rfl
  refine redraws_of_hasTable rfl named (show "colors" ∉ _ by decide) fun view image => ?_
  refine ⟨.quantize count view.settings.quantizing.dither view.settings.quantizing.treeDepth, ?_,
    fun given => .quantize _ _ _⟩
  change (Invocation.wordOf Integer.word64? text).bind _ = _
  rw [number]
  exact if_neg some

/-- With the channels that are selected at first the colors are mapped and the alpha is kept. -/
theorem rastersAfter_colors
    {s : Session Disk}
    (whole : s.images.Whole)
    (selected : s.settings.image.channels = .full)
    {text : String}
    {count : UInt64}
    (number : Invocation.wordOf Integer.word64? text = .ok count)
    (some : count ≠ 0) :
    s.rastersAfter ["-colors", text] = s.images.toList.map fun image =>
      image.raster.map (Color.mapChannels Channel.colors (Tone.reduction count)) := by
  obtain ⟨change, redraws, maps⟩ := redraws_colors number some s.settings
  have next : CommandStep.next "-colors" [text] =
      (.apply (Catalog.one "colors" .image) "-colors" [text], []) := rfl
  rw [rastersAfter_of_allRedraw (.one next redraws) whole]
  rw [selected] at maps
  simp only [(maps _).eq_map]
  rfl

/-- The option leaves images without transparency no more colors than this, when all channels are
selected as they are at first. -/
def LeavesAtMost (text : String) (limit : Nat) : Prop :=
  ∀ s : Session Disk, s.images.Whole → s.settings.image.channels = .full →
    (∀ image ∈ s.images.toList, ∀ c ∈ image.raster.pixels, c.alpha = 255) →
    List.Forall₂ (Raster.IsReducedTo limit) (s.images.toList.map Image.raster)
      (s.rastersAfter ["-colors", text])

section Colors

variable {text : String} {count : UInt64}
  (number : Invocation.wordOf Integer.word64? text = .ok count) (some : count ≠ 0)

include number some

/-- What is left of a session with one image. -/
theorem LeavesAtMost.card_le
    {limit : Nat}
    (leaves : LeavesAtMost text limit)
    {r : Raster}
    (solid : ∀ c ∈ r.pixels, c.alpha = 255) :
    (r.map (Color.mapChannels Channel.colors (Tone.reduction count))).colors.card ≤ limit := by
  let s : Session Disk := { images := .ofList [{ bitmap := .rgba r }], world := {} }
  have whole : s.images.Whole := .ofList _
  have left := leaves s whole rfl (List.forall_mem_singleton.mpr solid)
  rw [rastersAfter_colors whole rfl number some] at left
  cases left with
  | cons first _ => exact first.few

/-- The images are left with as many colors as there are triples of the values of the table. -/
theorem leavesAtMost_iff
    {limit : Nat} :
    LeavesAtMost text limit ↔ (Finset.univ.image (Tone.reduction count)).card ^ 3 ≤ limit := by
  constructor
  · intro leaves
    rw [← Raster.card_colors_map_spectrum]
    exact leaves.card_le number some Raster.alpha_spectrum
  · intro enough s whole selected solid
    rw [rastersAfter_colors whole selected number some, List.forall₂_map_left_iff,
      List.forall₂_map_right_iff]
    refine List.forall₂_same.mpr fun image member => ⟨rfl, ?_⟩
    exact (Raster.card_colors_map_le (solid image member) _).trans enough

/-- Colors reduced to a number are no more than the least cube with so many cells has, of two levels
at least and of no more than there are bytes.  So no more are left than were asked for just when the
number is itself that of such a cube, or there are no more opaque colors. -/
theorem reduction_keeps_number_iff :
    LeavesAtMost text (min (Tone.levelsFor count) 256 ^ 3) ∧
      IsLeast {side | max count.toNat 2 ≤ side ^ 3} (Tone.levelsFor count) ∧
      (LeavesAtMost text count.toNat ↔
        (∃ side, 2 ≤ side ∧ count.toNat = side ^ 3) ∨ 256 ^ 3 ≤ count.toNat) := by
  obtain ⟨few, exact⟩ := Tone.card_image_reduction count
  have least := Tone.levelsFor_isLeast count
  have enough : max count.toNat 2 ≤ Tone.levelsFor count ^ 3 := least.1
  have card_le : (Finset.univ.image (Tone.reduction count)).card ≤ Tone.levelsFor count := by
    rcases le_or_gt (Tone.levelsFor count) 256 with small | large
    · exact (exact small).le
    · exact few.trans large.le
  rw [leavesAtMost_iff number some, leavesAtMost_iff number some]
  refine ⟨Nat.pow_le_pow_left (le_min card_le few) 3, least, ?_⟩
  constructor
  · intro kept
    rcases le_or_gt (Tone.levelsFor count) 256 with small | large
    · rw [exact small] at kept
      exact .inl ⟨_, Tone.two_le_levelsFor count, by omega⟩
    · refine .inr (not_lt.mp fun less => ?_)
      have bound : max count.toNat 2 ≤ 256 ^ 3 := by omega
      exact absurd (least.2 bound) (not_le.mpr large)
  · rintro (⟨side, two, cube⟩ | all)
    · have bound : max count.toNat 2 ≤ side ^ 3 := by
        have eight : 2 ^ 3 ≤ side ^ 3 := Nat.pow_le_pow_left two 3
        omega
      rw [cube]
      exact Nat.pow_le_pow_left (card_le.trans (least.2 bound)) 3
    · exact (Nat.pow_le_pow_left few 3).trans all

end Colors

/-- Eight colors are as many as a cube of two levels has. -/
theorem eight_colors_kept :
    Invocation.wordOf Integer.word64? "8" = .ok (8 : UInt64) ∧ (8 : UInt64) ≠ 0 ∧
      LeavesAtMost "8" 8 := by
  have number : Invocation.wordOf Integer.word64? "8" = .ok (8 : UInt64) := by decide
  have some : (8 : UInt64) ≠ 0 := by decide
  refine ⟨number, some, (reduction_keeps_number_iff number some).2.2.mpr (.inl ⟨2, le_rfl, ?_⟩)⟩
  rfl

/-- Nine colors are asked for, and ten are left as they were: each channel is given three levels. -/
theorem nine_colors_exceeded :
    let ten : Raster := .ofList ⟨10, 1⟩
      [⟨0, 0, 0, 255⟩, ⟨0, 0, 255, 255⟩, ⟨0, 255, 0, 255⟩, ⟨0, 255, 255, 255⟩, ⟨255, 0, 0, 255⟩,
        ⟨255, 0, 255, 255⟩, ⟨255, 255, 0, 255⟩, ⟨255, 255, 255, 255⟩, ⟨128, 0, 0, 255⟩,
        ⟨0, 128, 0, 255⟩]
    let s : Session Disk := { images := .ofList [{ bitmap := .rgba ten }], world := {} }
    s.images.Whole ∧ s.settings.image.channels = .full ∧
      (∀ image ∈ s.images.toList, ∀ c ∈ image.raster.pixels, c.alpha = 255) ∧
      ¬ List.Forall₂ (Raster.IsReducedTo 9) (s.images.toList.map Image.raster)
        (s.rastersAfter ["-colors", "9"]) := by
  intro ten s
  have whole : s.images.Whole := .ofList _
  have solid : ∀ c ∈ ten.pixels, c.alpha = 255 := by decide
  have number : Invocation.wordOf Integer.word64? "9" = .ok (9 : UInt64) := by decide
  have left := rastersAfter_colors whole rfl number (by decide)
  refine ⟨whole, rfl, List.forall_mem_singleton.mpr solid, fun reduced => ?_⟩
  rw [left] at reduced
  cases reduced with
  | cons first _ =>
      have all : (ten.map (Color.mapChannels Channel.colors (Tone.reduction 9))).colors.card =
          10 := by
        decide +kernel
      exact absurd (all ▸ first.few) (by decide)

/-! ## Levels -/

/-- The option posterizes every image by the table of its levels. -/
theorem redraws_posterize
    {text : String}
    {levels : UInt32}
    (number : Invocation.wordOf Integer.word32? text = .ok levels)
    (settings : Settings) :
    ∃ change, Redraws settings change
        (.apply (Catalog.one "posterize" .image) "-posterize" [text]) ∧
      ∀ b, Raster.MapsValues settings.image.channels.Maps
        (Tone.posterizeBytes Float levels.toNat) b.raster (change b).raster := by
  have named : ImageOperator.named? (Invocation.of "-posterize" (some text) none).name =
      some .posterize := rfl
  refine redraws_of_hasTable rfl named (show "posterize" ∉ _ by decide) fun view image => ?_
  refine ⟨.posterize levels, ?_, fun given => .posterize levels⟩
  change (Invocation.wordOf Integer.word32? text).bind _ = _
  rw [number]
  rfl

/-- A number of levels leaves each channel that tone operators map no more values than levels, at
least two, and the other channels as they are; it keeps the order of values, and a second time it
changes no pixel.  So it is in fractions, for every number, image and selection, and in the doubles
of a command line. -/
theorem posterizing_settles :
    (∀ levels, Tone.Posterizes levels (Tone.posterizeBytes Rat levels) ∧
      ∀ image : Image,
        let once := image.mapValues (Tone.posterizeBytes Rat levels)
        Raster.IsPosterized image.channels.Maps levels (Tone.posterizeBytes Rat levels)
            image.raster once.raster ∧
          (once.mapValues (Tone.posterizeBytes Rat levels)).raster = once.raster) ∧
    ∀ text levels, Invocation.wordOf Integer.word32? text = .ok levels →
      Tone.Posterizes levels.toNat (Tone.posterizeBytes Float levels.toNat) ∧
      ∀ s : Session Disk, s.images.Whole →
        List.Forall₂
            (Raster.IsPosterized s.settings.image.channels.Maps levels.toNat
              (Tone.posterizeBytes Float levels.toNat))
            (s.images.toList.map Image.raster) (s.rastersAfter ["-posterize", text]) ∧
          s.rastersAfter ["-posterize", text, "-posterize", text] =
            s.rastersAfter ["-posterize", text] := by
  constructor
  · intro levels
    have posterizes := Tone.posterizes_rat levels
    refine ⟨posterizes, fun image => ?_⟩
    exact ⟨image.isPosterized_map posterizes image.raster,
      image.map_map_of_posterizes posterizes image.raster⟩
  · intro text levels number
    have posterizes := Tone.posterizes_float levels.toNat_lt
    refine ⟨posterizes, fun s whole => ?_⟩
    obtain ⟨change, redraws, maps⟩ := redraws_posterize number s.settings
    let selecting : Image := { (default : Image) with channels := s.settings.image.channels }
    have change_eq (b : Bitmap) : (change b).raster =
        b.raster.map (Color.mapChannels selecting.valueChannels
          (Tone.posterizeBytes Float levels.toNat)) :=
      (maps b).unique (Raster.mapsValues_map selecting _ _)
    have one := AllRedraw.one (show CommandStep.next "-posterize" [text] = _ from rfl) redraws
    have two : AllRedraw s.settings ["-posterize", text, "-posterize", text] (change ∘ change) :=
      .cons (show CommandStep.next "-posterize" [text, "-posterize", text] = _ from rfl) redraws one
    constructor
    · refine forall₂_rastersAfter one whole fun b => ?_
      rw [change_eq]
      exact selecting.isPosterized_map posterizes b.raster
    · rw [rastersAfter_of_allRedraw two whole, rastersAfter_of_allRedraw one whole]
      refine List.map_congr_left fun image _ => ?_
      rw [Function.comp_apply, change_eq, change_eq]
      exact selecting.map_map_of_posterizes posterizes image.raster

/-- Three levels of a ramp, of which the red and the alpha are selected: they are 0, 128 and 255. -/
theorem ramp_of_three_levels :
    let ramp : Image :=
      { bitmap := .rgba (.ofFn ⟨256, 2⟩ fun x y => ⟨.ofNat x, .ofNat x, 0, .ofNat y⟩) }
    let s : Session Disk :=
      { images := .ofList [ramp, default]
        settings := { image := { channels := ⟨true, false, false, true⟩ } }
        world := {} }
    Invocation.wordOf Integer.word32? "3" = .ok 3 ∧ s.images.Whole ∧
      [(0 : UInt8), 63, 64, 128, 191, 192, 255].map (Tone.posterizeBytes Rat 3) =
        [0, 0, 128, 128, 128, 255, 255] ∧
      Tone.Posterizes 3 (Tone.posterizeBytes Rat 3) ∧
      List.Forall₂ (Raster.IsPosterized (ChannelSet.Maps ⟨true, false, false, true⟩) 3
          (Tone.posterizeBytes Float 3))
        (s.images.toList.map Image.raster) (s.rastersAfter ["-posterize", "3"]) ∧
      s.rastersAfter ["-posterize", "3", "-posterize", "3"] =
        s.rastersAfter ["-posterize", "3"] := by
  intro ramp s
  have number : Invocation.wordOf Integer.word32? "3" = .ok 3 := by decide
  have whole : s.images.Whole := .ofList _
  obtain ⟨posterized, again⟩ := (posterizing_settles.2 "3" 3 number).2 s whole
  exact ⟨number, whole, by decide +kernel, (posterizing_settles.1 3).1, posterized, again⟩

end Session

end Darkroom
