import Darkroom.Proofs.Pixels.Values
import Darkroom.Proofs.Session.Redrawing

/-!
# Command lines that map values

A selection of channels is followed by an option that maps values by a table.  The named channels of
every image are mapped and the others are kept, but when all four channels are named the alpha is
kept too, as if it had not been asked for.
-/

namespace Darkroom

/-- Of a raster another is made by a table, after a text has selected channels. -/
structure Raster.MapsSelection (text : String) (f : UInt8 → UInt8) (before after : Raster) :
    Prop where
  /-- The selected channels are mapped, except the alpha of all channels. -/
  maps : ∃ channels, ChannelSet.parse text = .ok channels ∧
    MapsValues channels.Maps f before after
  /-- The named channels are mapped just when not all are named, or every alpha is what the table
  makes of it. -/
  named_iff : MapsValues (ChannelSet.Names text) f before after ↔
    ((∀ k, ChannelSet.Names text k) → ∀ x y, before.size.Contains x y →
      f (before.get x y).alpha = (before.get x y).alpha)

theorem Raster.MapsValues.mapsSelection
    {text : String}
    {channels : ChannelSet}
    (accepted : ChannelSet.parse text = .ok channels)
    {f : UInt8 → UInt8}
    {before after : Raster}
    (mapped : MapsValues channels.Maps f before after) :
    MapsSelection text f before after where
  maps := ⟨channels, accepted, mapped⟩
  named_iff := by
    have names := ChannelSet.contains_iff_names accepted
    rw [← MapsValues.congr names, mapped.contains_iff, ChannelSet.eq_full_iff]
    simp only [names]

/-- An operator with a channel value as its argument is given one. -/
theorem ImageOperator.byChannelValue_eq
    {op : Float → Transform}
    {view : View}
    {image : Image}
    {inv : Invocation}
    {text : String}
    {value : Float}
    (given : inv.first? = some text)
    (amount : channelValue text = .ok value) :
    byChannelValue op view image inv = work (op value) := by
  rw [byChannelValue, Invocation.first, given]
  change (channelValue text).bind _ = _
  rw [amount]
  rfl

/-- An option with its arguments asks for an operation that maps values. -/
inductive AsksForValues : String → List String → Transform → Prop
  | evaluate {name text : String} {operator : Evaluation} {value : Float}
      (keyword : Keyword.parse name = .ok operator)
      (amount : ImageOperator.channelValue text = .ok value) :
      AsksForValues "-evaluate" [name, text] (.evaluate operator value)
  | gamma {text : String} {g : Geometry} (parsed : Geometry.parse text = .ok g) :
      AsksForValues "-gamma" [text] (.gamma g.rhoValue)
  | level {option text : String} {g : Geometry} (signed : option ∈ ["-level", "+level"])
      (parsed : Geometry.parse text = .ok g) :
      AsksForValues option [text]
        (.level (ImageOperator.levels g).1 (ImageOperator.levels g).2.1
          (ImageOperator.levels g).2.2 (option == "+level"))
  | posterize {text : String} {levels : UInt32}
      (number : Invocation.wordOf Integer.word32? text = .ok levels) :
      AsksForValues "-posterize" [text] (.posterize levels)
  | solarize {text : String} {value : Float}
      (amount : ImageOperator.channelValue text = .ok value) :
      AsksForValues "-solarize" [text] (.solarize value)
  | blackThreshold {text : String} {value : Float}
      (amount : ImageOperator.channelValue text = .ok value) :
      AsksForValues "-black-threshold" [text] (.blackThreshold value)
  | whiteThreshold {text : String} {value : Float}
      (amount : ImageOperator.channelValue text = .ok value) :
      AsksForValues "-white-threshold" [text] (.whiteThreshold value)

namespace AsksForValues

/-- The operation has one table for all images. -/
theorem hasTable
    {option : String}
    {arguments : List String}
    {op : Transform}
    (asks : AsksForValues option arguments op) :
    ∃ f, ∀ image, op.HasTable image f := by
  cases asks with
  | evaluate => exact ⟨_, fun _ => .evaluate _ _⟩
  | gamma => exact ⟨_, fun _ => .gamma _⟩
  | level => exact ⟨_, fun _ => .level _ _ _ _⟩
  | posterize => exact ⟨_, fun _ => .posterize _⟩
  | solarize => exact ⟨_, fun _ => .solarize _⟩
  | blackThreshold => exact ⟨_, fun _ => .blackThreshold _⟩
  | whiteThreshold => exact ⟨_, fun _ => .whiteThreshold _⟩

end AsksForValues

namespace Session

/-! ## Steps -/

/-- An operator that works by one table redraws images, with the channels of the settings. -/
theorem redraws_of_hasTable
    {settings : Settings}
    {entry : CatalogEntry}
    {option : String}
    {arguments : List String}
    {operator : ImageOperator}
    {f : UInt8 → UInt8}
    (kind : entry.kind = .image)
    (named : ImageOperator.named? (Invocation.of option arguments[0]? arguments[1]?).name =
      some operator)
    (other : (Invocation.of option arguments[0]? arguments[1]?).name ∉ ImageOperator.counting)
    (works : ∀ view image, ∃ op, operator view image
      (Invocation.of option arguments[0]? arguments[1]?) = ImageOperator.work op ∧
      ∀ given, op.HasTable given f) :
    ∃ change, Redraws settings change (.apply entry option arguments) ∧
      ∀ b, Raster.MapsValues settings.image.channels.Maps f b.raster (change b).raster := by
  -- Of the image only its selection matters, which is that of the settings.
  let selecting : Image := { (default : Image) with channels := settings.image.channels }
  refine ⟨fun b => .rgba (b.raster.map (Color.mapChannels selecting.valueChannels f)), ?_,
    fun b => Raster.mapsValues_map selecting f b.raster⟩
  refine redraws_of_transform kind named other fun s same image => ?_
  subst same
  obtain ⟨op, decided, hasTable⟩ := works (s.viewDuring default) (s.given image)
  exact ⟨op, _, decided, PixelEngine.transform_of_hasTable (hasTable _), rfl⟩

/-- An option that asks for an operation on values is one step that redraws images. -/
theorem redraws_of_asksForValues
    {option : String}
    {arguments : List String}
    {op : Transform}
    {f : UInt8 → UInt8}
    (asks : AsksForValues option arguments op)
    (hasTable : ∀ image, op.HasTable image f)
    (settings : Settings) :
    ∃ step change, CommandStep.next option arguments = (step, []) ∧
      Redraws settings change step ∧
      ∀ b, Raster.MapsValues settings.image.channels.Maps f b.raster (change b).raster := by
  have oneStep {entry : CatalogEntry} {operator : ImageOperator}
      (next : CommandStep.next option arguments = (.apply entry option arguments, []))
      (kind : entry.kind = .image)
      (named : ImageOperator.named? (Invocation.of option arguments[0]? arguments[1]?).name =
        some operator)
      (other : (Invocation.of option arguments[0]? arguments[1]?).name ∉ ImageOperator.counting)
      (works : ∀ view image, operator view image
        (Invocation.of option arguments[0]? arguments[1]?) = ImageOperator.work op) :
      ∃ step change, CommandStep.next option arguments = (step, []) ∧
        Redraws settings change step ∧
        ∀ b, Raster.MapsValues settings.image.channels.Maps f b.raster (change b).raster := by
    obtain ⟨change, redraws, maps⟩ := redraws_of_hasTable kind named other fun view image =>
      ⟨op, works view image, hasTable⟩
    exact ⟨_, change, next, redraws, maps⟩
  cases asks with
  | evaluate keyword amount =>
      refine oneStep rfl rfl rfl (show "evaluate" ∉ _ by decide) fun view image => ?_
      rw [ImageOperator.evaluate, Invocation.keyword_of_parse rfl keyword]
      change (ImageOperator.channelValue _).bind _ = _
      rw [amount]
      rfl
  | gamma parsed =>
      refine oneStep rfl rfl rfl (show "gamma" ∉ _ by decide) fun view image => ?_
      rw [ImageOperator.gamma, Invocation.geometry_of_parse rfl parsed]
      rfl
  | level signed parsed =>
      simp only [List.mem_cons, List.not_mem_nil, or_false] at signed
      obtain rfl | rfl := signed
      · refine oneStep rfl rfl rfl (show "level" ∉ _ by decide) fun view image => ?_
        rw [ImageOperator.level, Invocation.geometry_of_parse rfl parsed]
        rfl
      · refine oneStep rfl rfl rfl (show "level" ∉ _ by decide) fun view image => ?_
        rw [ImageOperator.level, Invocation.geometry_of_parse rfl parsed]
        rfl
  | posterize number =>
      refine oneStep rfl rfl rfl (show "posterize" ∉ _ by decide) fun view image => ?_
      change (Invocation.wordOf Integer.word32? _).bind _ = _
      rw [number]
      rfl
  | solarize amount =>
      exact oneStep rfl rfl rfl (show "solarize" ∉ _ by decide) fun _ _ =>
        ImageOperator.byChannelValue_eq rfl amount
  | blackThreshold amount =>
      exact oneStep rfl rfl rfl (show "black-threshold" ∉ _ by decide) fun _ _ =>
        ImageOperator.byChannelValue_eq rfl amount
  | whiteThreshold amount =>
      exact oneStep rfl rfl rfl (show "white-threshold" ∉ _ by decide) fun _ _ =>
        ImageOperator.byChannelValue_eq rfl amount

/-! ## Command lines -/

/-- After a selection of channels the same images go on under settings with that selection. -/
theorem bitmapsAfter_channel
    {s : Session Disk}
    (whole : s.images.Whole)
    {text : String}
    {channels : ChannelSet}
    (accepted : ChannelSet.parse text = .ok channels)
    (rest : List String) :
    ∃ t : Session Disk, t.settings = s.settings.selecting channels (some text) ∧ t.images.Whole ∧
      t.images.toList.map Image.bitmap = s.images.toList.map Image.bitmap ∧
      s.bitmapsAfter ("-channel" :: text :: rest) = t.bitmapsAfter rest := by
  have first : CommandStep.next "-channel" (text :: rest) =
      (.apply (Catalog.one "channel" .settingAndImage) "-channel" [text], rest) := rfl
  obtain ⟨t, same, tWhole, left, goesOn⟩ :=
    bitmapsAfter_cons first (select_goesOnWith whole accepted)
  refine ⟨t, same, tWhole, ?_, goesOn⟩
  rw [left, List.map_map]
  rfl

/-- A selection of channels and an option that maps values map the values of that selection. -/
theorem mapsValues_rastersAfter
    {s : Session Disk}
    (whole : s.images.Whole)
    {text : String}
    {channels : ChannelSet}
    (accepted : ChannelSet.parse text = .ok channels)
    {option : String}
    {arguments : List String}
    {op : Transform}
    {f : UInt8 → UInt8}
    (asks : AsksForValues option arguments op)
    (hasTable : ∀ image, op.HasTable image f) :
    List.Forall₂ (Raster.MapsValues channels.Maps f) (s.images.toList.map Image.raster)
      (s.rastersAfter ("-channel" :: text :: option :: arguments)) := by
  obtain ⟨t, same, tWhole, bitmaps, selected⟩ :=
    bitmapsAfter_channel whole accepted (option :: arguments)
  obtain ⟨step, change, next, redraws, maps⟩ := redraws_of_asksForValues asks hasTable t.settings
  have rasters : s.images.toList.map Image.raster = t.images.toList.map Image.raster := by
    have ofBitmaps := congrArg (List.map Bitmap.raster) bitmaps
    rw [List.map_map, List.map_map] at ofBitmaps
    exact ofBitmaps.symm
  have channelsOf : t.settings.image.channels = channels := by
    rw [same]
    rfl
  rw [rastersAfter, selected, rasters]
  rw [channelsOf] at maps
  exact forall₂_rastersAfter (.one next redraws) tWhole maps

/-- Options that map values map exactly the channels that the selection names, for every way of
writing it, unless it names all four: then they keep the alpha, and so map what was named just when
every alpha is what the table makes of it. -/
theorem named_channels_are_mapped
    {text : String}
    {channels : ChannelSet}
    (accepted : ChannelSet.parse text = .ok channels)
    {op : Transform} :
    (∀ image : Image, image.channels = channels → ∀ f, op.HasTable image f → ∃ out,
      PixelEngine.transform image op = .ok (.mutated out) ∧
      Raster.MapsSelection text f image.raster out.raster) ∧
    ∀ option arguments, AsksForValues option arguments op → ∃ f, (∀ image, op.HasTable image f) ∧
      ∀ s : Session Disk, s.images.Whole →
        List.Forall₂ (Raster.MapsSelection text f) (s.images.toList.map Image.raster)
          (s.rastersAfter ("-channel" :: text :: option :: arguments)) := by
  constructor
  · intro image selected f hasTable
    have mapped := Raster.mapsValues_map image f image.raster
    rw [selected] at mapped
    exact ⟨_, PixelEngine.transform_of_hasTable hasTable, mapped.mapsSelection accepted⟩
  · intro option arguments asks
    obtain ⟨f, hasTable⟩ := asks.hasTable
    refine ⟨f, hasTable, fun s whole => ?_⟩
    exact (mapsValues_rastersAfter whole accepted asks hasTable).imp fun _ _ mapped =>
      mapped.mapsSelection accepted

/-- Two channels of four are named, and both are mapped in every image. -/
theorem red_and_alpha_posterized :
    let gray : Image :=
      { bitmap := Bitmap.of .la8 (.ofFn ⟨3, 2⟩ fun x y => ⟨.ofNat (40 * x), 0, 0, .ofNat (90 * y)⟩) }
    let s : Session Disk := { images := .ofList [gray, default], world := {} }
    ChannelSet.parse "red,A" = .ok ⟨true, false, false, true⟩ ∧ s.images.Whole ∧
      AsksForValues "-posterize" ["4"] (.posterize 4) ∧
      List.Forall₂ (Raster.MapsValues (ChannelSet.Names "red,A") (Tone.posterizeBytes Float 4))
        (s.images.toList.map Image.raster)
        (s.rastersAfter ["-channel", "red,A", "-posterize", "4"]) := by
  intro gray s
  have accepted : ChannelSet.parse "red,A" = .ok ⟨true, false, false, true⟩ := by decide
  have whole : s.images.Whole := .ofList _
  have asks : AsksForValues "-posterize" ["4"] (.posterize 4) := .posterize (by decide)
  obtain ⟨f, hasTable, mapped⟩ := (named_channels_are_mapped accepted).2 _ _ asks
  obtain rfl : f = Tone.posterizeBytes Float 4 := by
    cases hasTable default
    rfl
  have notGreen : ¬ ChannelSet.Names "red,A" .green := by decide
  refine ⟨accepted, whole, asks, (mapped s whole).imp fun _ _ selection => ?_⟩
  exact selection.named_iff.mpr fun all => absurd (all .green) notGreen

/-- All four channels are named, and the alpha of the only color is not mapped. -/
theorem named_alpha_not_posterized :
    let translucent : Raster := .ofFn ⟨1, 1⟩ fun _ _ => ⟨255, 0, 0, 128⟩
    let s : Session Disk := { images := .ofList [{ bitmap := .rgba translucent }], world := {} }
    ChannelSet.parse "RGBA" = .ok .full ∧ s.images.Whole ∧
      AsksForValues "-posterize" ["2"] (.posterize 2) ∧
      ¬ List.Forall₂ (Raster.MapsValues (ChannelSet.Names "RGBA") (Tone.posterizeBytes Float 2))
        (s.images.toList.map Image.raster)
        (s.rastersAfter ["-channel", "RGBA", "-posterize", "2"]) := by
  intro translucent s
  have accepted : ChannelSet.parse "RGBA" = .ok .full := by decide
  have whole : s.images.Whole := .ofList _
  have asks : AsksForValues "-posterize" ["2"] (.posterize 2) := .posterize (by decide)
  have mapped := mapsValues_rastersAfter whole accepted asks fun _ => .posterize 2
  refine ⟨accepted, whole, asks, fun named => ?_⟩
  have only : s.images.toList.map Image.raster = [translucent] := rfl
  rw [only] at mapped named
  generalize s.rastersAfter _ = rasters at mapped named
  cases mapped with
  | cons first _ =>
      cases named with
      | cons firstNamed _ =>
          have all : ∀ k, ChannelSet.Names "RGBA" k := fun k => by cases k <;> decide
          have spared := (first.mapsSelection accepted).named_iff.mp firstNamed all 0 0
            (by decide)
          exact absurd spared (by decide +kernel)

end Session
end Darkroom
