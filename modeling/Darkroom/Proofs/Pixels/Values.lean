import Darkroom.Engine.Pixel
import Darkroom.Proofs.ChannelSet
import Darkroom.Proofs.Pixels.Raster

/-!
# Values mapped by tables

Operators on tone look up channel values in a table.  They do so in the selected channels, but when
all channels are selected the alpha is left alone, as if nothing had been selected.  The
least and the greatest of some values are found among them.
-/

namespace Darkroom

/-! ## Least and greatest bytes -/

/-- The least of some bytes. -/
def leastByte (values : List UInt8) : UInt8 :=
  values.foldl min 255

/-- The greatest of some bytes. -/
def greatestByte (values : List UInt8) : UInt8 :=
  values.foldl max 0

theorem min_byte
    (v w : UInt8) :
    min v w = if v ≤ w then v else w :=
  rfl

theorem max_byte
    (v w : UInt8) :
    max v w = if v ≤ w then w else v :=
  rfl

/-- The greatest byte is found among the negatives as the least one. -/
theorem greatestByte_eq
    (values : List UInt8) :
    greatestByte values = 255 - leastByte (values.map fun v => 255 - v) := by
  have step (least v : UInt8) : max (255 - least) v = 255 - min least (255 - v) := by
    rw [min_byte, max_byte]
    grind
  calc greatestByte values
      = values.foldl max (255 - 255) := rfl
    _ = 255 - values.foldl (fun least v => min least (255 - v)) 255 :=
        List.foldl_hom (fun least => (255 : UInt8) - least) step
    _ = 255 - leastByte (values.map fun v => 255 - v) := by rw [leastByte, List.foldl_map]

theorem leastByte_le
    {values : List UInt8}
    {v : UInt8}
    (member : v ∈ values) :
    leastByte values ≤ v := by
  -- The least byte so far only falls.
  have falls (values : List UInt8) (start : UInt8) :
      values.foldl min start ≤ start ∧ ∀ v ∈ values, values.foldl min start ≤ v := by
    induction values generalizing start with
    | nil => exact ⟨UInt8.le_refl _, List.forall_mem_nil _⟩
    | cons first rest inductionHypothesis =>
        obtain ⟨below, belowOthers⟩ := inductionHypothesis (min start first)
        rw [List.foldl_cons, List.forall_mem_cons]
        rw [min_byte] at below belowOthers ⊢
        refine ⟨?_, ?_, belowOthers⟩ <;> grind
  exact (falls values 255).2 v member

theorem le_greatestByte
    {values : List UInt8}
    {v : UInt8}
    (member : v ∈ values) :
    v ≤ greatestByte values := by
  have least := leastByte_le (List.mem_map_of_mem (f := fun v => 255 - v) member)
  rw [greatestByte_eq]
  grind

theorem leastByte_mem
    {values : List UInt8}
    (nonempty : values ≠ []) :
    leastByte values ∈ values := by
  -- The least byte so far is the start or one of the bytes.
  have found (values : List UInt8) (start : UInt8) :
      values.foldl min start = start ∨ values.foldl min start ∈ values := by
    induction values generalizing start with
    | nil => exact .inl rfl
    | cons first rest inductionHypothesis =>
        rw [List.foldl_cons, List.mem_cons]
        rcases inductionHypothesis (min start first) with same | member
        · rw [same, min_byte]
          grind
        · exact .inr (.inr member)
  rcases found values 255 with greatest | member
  · obtain ⟨v, member⟩ := List.exists_mem_of_ne_nil values nonempty
    have least := leastByte_le member
    rw [leastByte, greatest] at least
    have atMost : v ≤ 255 := UInt8.le_iff_toNat_le.mpr (Nat.le_of_lt_succ v.toNat_lt)
    have same : v = 255 := UInt8.le_antisymm atMost least
    rwa [leastByte, greatest, ← same]
  · exact member

theorem greatestByte_mem
    {values : List UInt8}
    (nonempty : values ≠ []) :
    greatestByte values ∈ values := by
  have some : (values.map fun v => 255 - v) ≠ [] := by simpa using nonempty
  obtain ⟨v, member, same⟩ := List.mem_map.mp (leastByte_mem some)
  have greatest : greatestByte values = v := by
    rw [greatestByte_eq, ← same]
    grind
  rwa [greatest]

/-! ## Mapped channels -/

namespace ChannelSet

/-- Operators on tone map a channel: it is selected, and it is not the alpha of all channels. -/
def Maps (channels : ChannelSet) (k : Channel) : Prop :=
  channels.contains k = true ∧ (channels = full → k ≠ .alpha)

instance (channels : ChannelSet) (k : Channel) : Decidable (channels.Maps k) :=
  inferInstanceAs (Decidable (_ ∧ _))

/-- Only the alpha of all channels is selected and not mapped. -/
theorem maps_iff_of_not_full_alpha
    {channels : ChannelSet}
    {k : Channel}
    (other : ¬ (channels = full ∧ k = .alpha)) :
    channels.Maps k ↔ channels.contains k = true :=
  and_iff_left fun all alpha => other ⟨all, alpha⟩

end ChannelSet

theorem Image.mem_valueChannels_iff
    {image : Image}
    {k : Channel} :
    k ∈ image.valueChannels ↔ image.channels.Maps k := by
  unfold valueChannels ChannelSet.Maps
  split
  · next all =>
    rw [all]
    cases k <;> decide
  · next part =>
    rw [ChannelSet.mem_members_iff, and_iff_left fun all => absurd all part]

theorem Image.nodup_valueChannels
    (image : Image) :
    image.valueChannels.Nodup := by
  unfold valueChannels
  split
  · decide
  · exact List.Nodup.filter _ (show Channel.all.Nodup by decide)

/-! ## Mapped values -/

/-- Each of some channels is changed once, and the others keep their value. -/
theorem Color.get_foldl_put
    {channels : List Channel}
    (nodup : channels.Nodup)
    (f : Channel → UInt8 → UInt8)
    (c : Color)
    (k : Channel) :
    (channels.foldl (fun c k => c.put k (f k (c.get k))) c).get k =
      if k ∈ channels then f k (c.get k) else c.get k := by
  induction channels generalizing c with
  | nil => rfl
  | cons j rest inductionHypothesis =>
      obtain ⟨first, others⟩ := List.nodup_cons.mp nodup
      rw [List.foldl_cons, inductionHypothesis others]
      by_cases same : k = j
      · subst same
        rw [if_neg first, get_put_self, if_pos List.mem_cons_self]
      · rw [get_put_of_ne c _ same]
        simp only [List.mem_cons, same, false_or]

/-- Each of some channels is mapped once, and the others keep their value. -/
theorem Color.get_mapChannels
    {channels : List Channel}
    (nodup : channels.Nodup)
    (f : UInt8 → UInt8)
    (c : Color)
    (k : Channel) :
    (c.mapChannels channels f).get k = if k ∈ channels then f (c.get k) else c.get k :=
  get_foldl_put nodup (fun _ => f) c k

/-- Of one raster another is made, with some channels mapped at every place. -/
structure Raster.MapsValues (channels : Channel → Prop) [DecidablePred channels]
    (f : UInt8 → UInt8) (before after : Raster) : Prop where
  /-- The size is the same. -/
  size : after.size = before.size
  /-- These channels are mapped and the others keep their value. -/
  values : ∀ x y, before.size.Contains x y → ∀ k, (after.get x y).get k =
    if channels k then f ((before.get x y).get k) else (before.get x y).get k

/-- The colors with values mapped as operators on tone map them. -/
theorem Raster.mapsValues_map
    (image : Image)
    (f : UInt8 → UInt8)
    (r : Raster) :
    MapsValues image.channels.Maps f r (r.map (Color.mapChannels image.valueChannels f)) := by
  refine ⟨rfl, fun x y inside k => ?_⟩
  rw [Raster.get_map _ inside, Color.get_mapChannels image.nodup_valueChannels]
  simp only [Image.mem_valueChannels_iff]

theorem Raster.MapsValues.congr
    {channels channels' : Channel → Prop}
    [DecidablePred channels]
    [DecidablePred channels']
    (same : ∀ k, channels k ↔ channels' k)
    {f : UInt8 → UInt8}
    {before after : Raster} :
    MapsValues channels f before after ↔ MapsValues channels' f before after := by
  constructor <;> rintro ⟨size, values⟩ <;> refine ⟨size, fun x y inside k => ?_⟩ <;>
    simp only [values x y inside k, same]

/-- All selected channels are mapped unless they are all channels and the alpha of some color is not
what the table makes of it. -/
theorem Raster.MapsValues.contains_iff
    {channels : ChannelSet}
    {f : UInt8 → UInt8}
    {before after : Raster}
    (mapped : MapsValues channels.Maps f before after) :
    MapsValues (channels.contains · = true) f before after ↔
      channels = .full → ∀ x y, before.size.Contains x y →
        f (before.get x y).alpha = (before.get x y).alpha := by
  constructor
  · rintro ⟨-, named⟩ rfl x y inside
    have asNamed := named x y inside .alpha
    have asMapped := mapped.values x y inside .alpha
    rw [if_neg fun maps => maps.2 rfl rfl] at asMapped
    exact asNamed.symm.trans asMapped
  · intro spared
    refine ⟨mapped.size, fun x y inside k => ?_⟩
    rw [mapped.values x y inside]
    by_cases allAlpha : channels = .full ∧ k = .alpha
    · obtain ⟨rfl, rfl⟩ := allAlpha
      rw [if_neg fun maps => maps.2 rfl rfl]
      exact (spared rfl x y inside).symm
    · simp only [ChannelSet.maps_iff_of_not_full_alpha allAlpha]

/-! ## Operations with a table -/

/-- An operation maps the values of an image by a table. -/
inductive Transform.HasTable (image : Image) : Transform → (UInt8 → UInt8) → Prop
  | blackThreshold (level : Float) :
      HasTable image (.blackThreshold level)
        (Tone.onByte fun v : Float => if v * 255.0 < level then 0.0 else v)
  | whiteThreshold (level : Float) :
      HasTable image (.whiteThreshold level)
        (Tone.onByte fun v : Float => if level < v * 255.0 then 1.0 else v)
  | solarize (threshold : Float) :
      HasTable image (.solarize threshold)
        (Tone.onByte fun v : Float => if threshold < v * 255.0 then 1.0 - v else v)
  | gamma (value : Float) :
      HasTable image (.gamma value)
        (Tone.onByte fun v : Float => v.pow (1.0 / if value ≤ 0.0 then 1.0 else value))
  | level (black white gamma : Float) (invert : Bool) :
      HasTable image (.level black white gamma invert)
        (Tone.onByte (Tone.level black white gamma invert))
  | evaluate (operator : Evaluation) (value : Float) :
      HasTable image (.evaluate operator value) (Tone.onByte (Tone.evaluateCurve operator value))
  | posterize (levels : UInt32) :
      HasTable image (.posterize levels) (Tone.posterizeBytes Float levels.toNat)
  | quantize (colors : UInt64) (dither : Bool) (treeDepth : UInt64) :
      HasTable image (.quantize colors dither treeDepth)
        (Tone.onByte (Tone.posterize (Tone.quantizeLevels colors - 1.0)))
  | brightnessContrast (brightness contrast : Float) :
      HasTable image (.brightnessContrast brightness contrast)
        (Tone.onByte (Tone.brightnessContrast brightness contrast))
  | sigmoidalContrast (sharpen : Bool) (contrast midpoint : Float) :
      HasTable image (.sigmoidalContrast sharpen contrast midpoint)
        (Tone.onByte (Tone.sigmoidal sharpen contrast midpoint))
  | autoLevel :
      HasTable image .autoLevel
        (Tone.stretchBytes Float (Tone.bounds image).1.toNat (Tone.bounds image).2.toNat)
  | normalize :
      HasTable image .normalize
        (Tone.stretchBytes Float (Tone.bounds image).1.toNat (Tone.bounds image).2.toNat)
  | contrastStretch (black white : Float) :
      HasTable image (.contrastStretch black white)
        (Tone.stretchBytes Float (Tone.histogramBounds image.raster.toList black white).1
          (Tone.histogramBounds image.raster.toList black white).2)
  | linearStretch (black white : Float) :
      HasTable image (.linearStretch black white)
        (Tone.stretchBytes Float (Tone.histogramBounds image.raster.toList black white).1
          (Tone.histogramBounds image.raster.toList black white).2)
  | autoGamma (between : ¬ (Tone.meanLuma image ≤ 0.0 ∨ 1.0 ≤ Tone.meanLuma image)) :
      HasTable image .autoGamma
        (Tone.onByte fun v : Float => v.pow ((0.5 : Float).log / (Tone.meanLuma image).log))

/-- The engine maps the values of its image when an operation has a table. -/
theorem PixelEngine.transform_of_hasTable
    {image : Image}
    {op : Transform}
    {f : UInt8 → UInt8}
    (hasTable : op.HasTable image f) :
    transform image op = .ok (.mutated (image.mapValues f)) := by
  cases hasTable with
  | autoGamma between =>
      have mapped : Tone.autoGamma? image =
          some (image.mapValues (Tone.onByte fun v : Float =>
            v.pow ((0.5 : Float).log / (Tone.meanLuma image).log))) :=
        if_neg between
      simp only [transform, mapped]
  | _ => rfl

end Darkroom
