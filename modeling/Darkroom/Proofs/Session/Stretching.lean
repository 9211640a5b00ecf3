import Darkroom.Proofs.Color.Stretch
import Darkroom.Proofs.Pixels.Values
import Darkroom.Proofs.Session.Values

/-!
# Stretched values

The least value of the mapped channels and the greatest one are stretched over all values.  The
least becomes zero and the greatest full, and what is between keeps its order.  Then there is
nothing left to stretch: the table between zero and full changes no value.  When all values are the
same they become zero, and zero stays zero.  So it is in fractions and in the doubles of a command
line, by either of two options.
-/

namespace Darkroom

/-! ## Values of mapped channels -/

/-- A value of one of some channels. -/
def Raster.HasValue (channels : Channel → Prop) (r : Raster) (v : UInt8) : Prop :=
  ∃ c ∈ r.pixels, ∃ k, channels k ∧ c.get k = v

namespace Image

/-- The values of the mapped channels, pixel by pixel. -/
def mappedValues (image : Image) : List UInt8 :=
  image.raster.toList.flatMap fun c => image.valueChannels.map c.get

variable {image : Image}

theorem mem_mappedValues_iff
    {v : UInt8} :
    v ∈ image.mappedValues ↔ image.raster.HasValue image.channels.Maps v := by
  simp only [mappedValues, List.mem_flatMap, List.mem_map, mem_valueChannels_iff, Raster.HasValue,
    Raster.toList, Array.mem_toList_iff]

theorem bounds_eq
    (image : Image) :
    Tone.bounds image = (leastByte image.mappedValues, greatestByte image.mappedValues) := by
  let widen (range : UInt8 × UInt8) (v : UInt8) : UInt8 × UInt8 := (min range.1 v, max range.2 v)
  have both (values : List UInt8) (range : UInt8 × UInt8) :
      values.foldl widen range = (values.foldl min range.1, values.foldl max range.2) := by
    induction values generalizing range with
    | nil => rfl
    | cons v rest inductionHypothesis => exact inductionHypothesis _
  calc Tone.bounds image
      = image.raster.toList.foldl
          (fun range c => image.valueChannels.foldl (fun range k => widen range (c.get k)) range)
          (255, 0) := rfl
    _ = image.mappedValues.foldl widen (255, 0) := by
        rw [mappedValues, List.foldl_flatMap]
        simp only [List.foldl_map]
    _ = (leastByte image.mappedValues, greatestByte image.mappedValues) := both _ _

theorem bounds_fst_eq
    {low : UInt8}
    (isLeast : IsLeast {v | image.raster.HasValue image.channels.Maps v} low) :
    (Tone.bounds image).1 = low := by
  have member := mem_mappedValues_iff.mpr isLeast.1
  have found := mem_mappedValues_iff.mp (leastByte_mem (List.ne_nil_of_mem member))
  rw [bounds_eq]
  exact UInt8.le_antisymm (leastByte_le member) (isLeast.2 found)

theorem bounds_snd_eq
    {high : UInt8}
    (isGreatest : IsGreatest {v | image.raster.HasValue image.channels.Maps v} high) :
    (Tone.bounds image).2 = high := by
  have member := mem_mappedValues_iff.mpr isGreatest.1
  have found := mem_mappedValues_iff.mp (greatestByte_mem (List.ne_nil_of_mem member))
  rw [bounds_eq]
  exact UInt8.le_antisymm (isGreatest.2 found) (le_greatestByte member)

theorem mappedValues_mapValues
    (image : Image)
    (f : UInt8 → UInt8) :
    (image.mapValues f).mappedValues = image.mappedValues.map f := by
  have colors : (image.mapValues f).raster.toList =
      image.raster.toList.map (Color.mapChannels image.valueChannels f) := Array.toList_map
  have values (c : Color) :
      image.valueChannels.map (c.mapChannels image.valueChannels f).get =
        (image.valueChannels.map c.get).map f := by
    rw [List.map_map]
    refine List.map_congr_left fun k mem => ?_
    rw [Color.get_mapChannels image.nodup_valueChannels, if_pos mem]
    rfl
  rw [mappedValues, mappedValues, colors, List.flatMap_map, List.map_flatMap]
  exact List.flatMap_congr fun c _ => values c

/-- A table that keeps the values of an image keeps the image. -/
theorem raster_mapValues_of_fixed
    {f : UInt8 → UInt8}
    (fixed : ∀ v ∈ image.mappedValues, f v = v) :
    (image.mapValues f).raster = image.raster := by
  refine Raster.map_eq_self fun c member => Color.ext_get fun k => ?_
  rw [Color.get_mapChannels image.nodup_valueChannels]
  split
  · next mapped =>
    exact fixed _ (mem_mappedValues_iff.mpr ⟨c, member, k, mem_valueChannels_iff.mp mapped, rfl⟩)
  · rfl

end Image

theorem leastByte_map
    {f : UInt8 → UInt8}
    (mono : ∀ {u v : UInt8}, u ≤ v → f u ≤ f v)
    {values : List UInt8}
    (nonempty : values ≠ []) :
    leastByte (values.map f) = f (leastByte values) := by
  have some : values.map f ≠ [] := by simpa using nonempty
  refine UInt8.le_antisymm (leastByte_le (List.mem_map_of_mem (leastByte_mem nonempty))) ?_
  obtain ⟨v, member, same⟩ := List.mem_map.mp (leastByte_mem some)
  rw [← same]
  exact mono (leastByte_le member)

theorem greatestByte_map
    {f : UInt8 → UInt8}
    (mono : ∀ {u v : UInt8}, u ≤ v → f u ≤ f v)
    {values : List UInt8}
    (nonempty : values ≠ []) :
    greatestByte (values.map f) = f (greatestByte values) := by
  have some : values.map f ≠ [] := by simpa using nonempty
  refine UInt8.le_antisymm ?_ (le_greatestByte (List.mem_map_of_mem (greatestByte_mem nonempty)))
  obtain ⟨v, member, same⟩ := List.mem_map.mp (greatestByte_mem some)
  rw [← same]
  exact mono (le_greatestByte member)

/-! ## Stretched images -/

/-- A raster with the values of some channels stretched over all values by a table. -/
structure Raster.IsStretched (channels : Channel → Prop) [DecidablePred channels]
    (f : UInt8 → UInt8) (before after : Raster) : Prop where
  /-- The channels are mapped by the table, and the others keep their values. -/
  maps : MapsValues channels f before after
  /-- The order of values is kept. -/
  mono : ∀ {u v}, u ≤ v → f u ≤ f v
  /-- The least value becomes zero. -/
  least : ∀ {low}, IsLeast {v | before.HasValue channels v} low → f low = 0
  /-- The greatest value becomes full if it is not the least one. -/
  greatest : ∀ {low high}, IsLeast {v | before.HasValue channels v} low →
    IsGreatest {v | before.HasValue channels v} high → low ≠ high → f high = 255

/-- The table for an image among the tables between two bytes. -/
def Image.stretchedBy (table : Nat → Nat → UInt8 → UInt8) (image : Image) : Image :=
  image.mapValues (table (Tone.bounds image).1.toNat (Tone.bounds image).2.toNat)

namespace Tone.Stretches

variable {table : Nat → Nat → UInt8 → UInt8} (stretches : Stretches table) (image : Image)

include stretches

theorem isStretched :
    image.raster.IsStretched image.channels.Maps
      (table (bounds image).1.toNat (bounds image).2.toNat) (image.stretchedBy table).raster where
  maps := Raster.mapsValues_map image _ image.raster
  mono := stretches.mono _ _
  least {low} isLeast := by
    rw [Image.bounds_fst_eq isLeast]
    exact stretches.least low _
  greatest {low high} isLeast isGreatest differ := by
    rw [Image.bounds_fst_eq isLeast, Image.bounds_snd_eq isGreatest]
    exact stretches.greatest (UInt8.lt_of_le_of_ne (isLeast.2 isGreatest.1) differ)

/-- Stretched a second time it stays as it is. -/
theorem stretchedBy_stretchedBy :
    ((image.stretchedBy table).stretchedBy table).raster = (image.stretchedBy table).raster := by
  refine Image.raster_mapValues_of_fixed fun v member => ?_
  have values : (image.stretchedBy table).mappedValues = _ := image.mappedValues_mapValues _
  rw [Image.bounds_eq, values]
  rw [values] at member
  obtain ⟨u, inside, rfl⟩ := List.mem_map.mp member
  have nonempty : image.mappedValues ≠ [] := List.ne_nil_of_mem inside
  rw [leastByte_map (stretches.mono _ _) nonempty, greatestByte_map (stretches.mono _ _) nonempty,
    image.bounds_eq]
  dsimp only
  rw [stretches.least]
  have low := leastByte_le inside
  have high := le_greatestByte inside
  by_cases same : leastByte image.mappedValues = greatestByte image.mappedValues
  · -- All values are the same, and they have become zero.
    obtain rfl : u = leastByte image.mappedValues := UInt8.le_antisymm (same ▸ high) low
    rw [stretches.least]
    exact stretches.least 0 _
  · rw [stretches.greatest (UInt8.lt_of_le_of_ne (UInt8.le_trans low high) same)]
    exact stretches.full _

end Tone.Stretches

namespace Session

/-- An image with the channels of the settings. -/
def selecting (settings : Settings) (b : Bitmap) : Image :=
  { (default : Image) with channels := settings.image.channels, bitmap := b }

/-- Both options stretch the values of every image. -/
theorem redraws_stretching
    {option : String}
    (listed : option ∈ ["-auto-level", "-normalize"])
    (settings : Settings) :
    ∃ step, (∀ rest, CommandStep.next option rest = (step, rest)) ∧
      Redraws settings
        (fun b => ((selecting settings b).stretchedBy (Tone.stretchBytes Float)).bitmap) step := by
  simp only [List.mem_cons, List.not_mem_nil, or_false] at listed
  obtain rfl | rfl := listed
  · refine ⟨_, fun rest => rfl, redraws_of_transform rfl rfl (show "auto-level" ∉ _ by decide)
      fun s same image => ?_⟩
    subst same
    exact ⟨_, _, rfl, PixelEngine.transform_of_hasTable .autoLevel, rfl⟩
  · refine ⟨_, fun rest => rfl, redraws_of_transform rfl rfl (show "normalize" ∉ _ by decide)
      fun s same image => ?_⟩
    subst same
    exact ⟨_, _, rfl, PixelEngine.transform_of_hasTable .normalize, rfl⟩

/-- The options that stretch values map the channels that are mapped by a table that keeps the order
of values, takes the least value of these channels to zero and the greatest to full unless it is the
least, and they keep the other channels; once more, they change no pixel.  So it is in fractions,
for every image and selection, and in the doubles of a command line. -/
theorem stretching_settles :
    (∀ image : Image,
      let once := Tone.autoLevel Rat image
      image.raster.IsStretched image.channels.Maps
          (Tone.stretchBytes Rat (Tone.bounds image).1.toNat (Tone.bounds image).2.toNat)
          once.raster ∧
        (Tone.autoLevel Rat once).raster = once.raster) ∧
    ∀ s : Session Disk, s.images.Whole → ∀ option ∈ ["-auto-level", "-normalize"],
      List.Forall₂
          (fun before after => ∃ f, before.IsStretched s.settings.image.channels.Maps f after)
          (s.images.toList.map Image.raster) (s.rastersAfter [option]) ∧
        ∀ again ∈ ["-auto-level", "-normalize"],
          s.rastersAfter [option, again] = s.rastersAfter [option] := by
  constructor
  · intro image
    have stretches := Tone.takesWay_rat.stretches
    exact ⟨stretches.isStretched image, stretches.stretchedBy_stretchedBy image⟩
  · intro s whole option listed
    have stretches := Tone.takesWay_float.stretches
    obtain ⟨step, next, redraws⟩ := redraws_stretching listed s.settings
    have one : AllRedraw s.settings [option] _ := .one (next []) redraws
    constructor
    · exact forall₂_rastersAfter one whole fun b =>
        ⟨_, stretches.isStretched (selecting s.settings b)⟩
    · intro again listedAgain
      obtain ⟨stepAgain, nextAgain, redrawsAgain⟩ := redraws_stretching listedAgain s.settings
      have two : AllRedraw s.settings [option, again] _ :=
        .cons (next [again]) redraws (.one (nextAgain []) redrawsAgain)
      rw [rastersAfter_of_allRedraw two whole, rastersAfter_of_allRedraw one whole]
      exact List.map_congr_left fun image _ =>
        stretches.stretchedBy_stretchedBy (selecting s.settings image.bitmap)

/-- Three grays are stretched: the least is zero then, the greatest is full, and the one between
them has come a third of the way. -/
theorem three_grays_stretched :
    let grays : Image :=
      { bitmap := .rgba (.ofFn ⟨3, 1⟩ fun x _ => Color.gray (UInt8.ofNat (50 * (x + x / 2 + 1)))) }
    let s : Session Disk := { images := .ofList [grays], world := {} }
    s.images.Whole ∧ "-normalize" ∈ ["-auto-level", "-normalize"] ∧
      (grays.raster.toList.map Color.red, (Tone.autoLevel Rat grays).raster.toList.map Color.red) =
        ([50, 100, 200], [0, 85, 255]) ∧
      List.Forall₂ (fun before after => ∃ f, before.IsStretched ChannelSet.full.Maps f after)
        (s.images.toList.map Image.raster) (s.rastersAfter ["-normalize"]) ∧
      s.rastersAfter ["-normalize", "-normalize"] = s.rastersAfter ["-normalize"] := by
  intro grays s
  have whole : s.images.Whole := .ofList _
  have listed : "-normalize" ∈ ["-auto-level", "-normalize"] := by decide
  obtain ⟨stretched, again⟩ := stretching_settles.2 s whole "-normalize" listed
  exact ⟨whole, listed, by decide +kernel, stretched, again "-normalize" listed⟩

end Session

end Darkroom
