import Darkroom.Proofs.Session.CommandLine
import Darkroom.Proofs.Session.Order

/-!
# Channels that are separated

The option that selects channels is a setting and an operator at once.  When it is taken back, the
setting comes first and selects all channels again, and every image is brought in line with that
before it is separated.  So all four channels are separated, whatever was selected before.
-/

namespace Darkroom

/-- The image with a selection of channels. -/
def Image.withChannels (image : Image) (channels : ChannelSet) : Image :=
  { image with channels }

/-- The settings with a selection of channels, and with its text if it was written. -/
def Settings.selecting (s : Settings) (channels : ChannelSet) (text? : Option String) : Settings :=
  { s with image := { s.image with channels } }.putOption "channel" text?

/-- Images take up the selection, and nothing else that they take up depends on it. -/
theorem Settings.sync_selecting
    (s : Settings)
    (channels : ChannelSet)
    (text? : Option String)
    (image : Image) :
    (s.selecting channels text?).image.sync image =
      (s.image.sync image).withChannels channels := by
  rw [selecting, sync_putOption _ (by decide)]
  rfl

/-- The selection that an image had does not matter when it takes up the settings. -/
theorem ImageSettings.sync_withChannels
    (s : ImageSettings)
    (channels : ChannelSet)
    (image : Image) :
    s.sync (image.withChannels channels) = s.sync image :=
  rfl

/-- Only the set of all channels has as many as there are. -/
theorem ChannelSet.eq_full_of_count
    {channels : ChannelSet}
    (count : channels.count = ChannelSet.full.count) :
    channels = .full := by
  revert count
  rcases channels with ⟨_ | _, _ | _, _ | _, _ | _⟩ <;> decide

namespace SettingOption

variable {s : Settings} {inv : Invocation}

theorem channel_of_normal
    {text : String}
    {channels : ChannelSet}
    (normal : inv.normal = true)
    (given : inv.first? = some text)
    (accepted : ChannelSet.parse text = .ok channels) :
    channel s inv = .ok (.set (s.selecting channels (some text))) := by
  unfold channel Invocation.first
  rw [if_pos normal, given]
  simp only [bind, Except.bind, accepted, Except.mapError]
  rfl

theorem channel_of_takenBack
    (takenBack : inv.normal = false) :
    channel s inv = .ok (.set (s.selecting .full none)) := by
  unfold channel
  rw [if_neg (by simp [takenBack])]
  rfl

end SettingOption

namespace Session

variable {σ : Type} {engine : Engine σ} {operator : ImageOperator} {inv : Invocation}

/-! ## Passes -/

/-- With the standard engine no pass ends the run. -/
theorem passOver_standard_goesOn
    {name : String}
    (named : ImageOperator.named? name = some operator)
    (handles : List Handle)
    (s : Session Disk) :
    (s.passOver .standard operator inv handles).1 = none := by
  induction handles generalizing s with
  | nil => rfl
  | cons h rest inductionHypothesis =>
      cases found : s.images.get? h with
      | none =>
          rw [passOver_of_taken found]
          exact inductionHypothesis s
      | some image =>
          rw [passOver_of_found found]
          dsimp only
          rw [visit_fatal? named]
          exact inductionHypothesis _

/-- What was done goes on with these settings and these images. -/
structure GoesOnWith (settings : Settings) (images : List Image)
    (ended : Option Fatal × Session Disk) : Prop where
  /-- Nothing fatal happened. -/
  goesOn : ended.1 = none
  /-- These are the settings. -/
  settings : ended.2.settings = settings
  /-- The list is whole. -/
  whole : ended.2.images.Whole
  /-- These are its images. -/
  images : ended.2.images.toList = images

/-- A pass of an operator that does not see the number of images keeps the settings, and makes of
each image what a visit at the start makes of it. -/
theorem pass_goesOnWith
    (option : String)
    (first? second? : Option String)
    (named : ImageOperator.named? (Invocation.of option first? second?).name = some operator)
    (other : (Invocation.of option first? second?).name ∉ ImageOperator.counting)
    {s : Session Disk}
    (whole : s.images.Whole)
    (nonempty : s.images.isEmpty = false)
    {makes : Image → List Image}
    (made : ∀ image,
      (s.visit .standard operator (.of option first? second?) default image).made = makes image) :
    GoesOnWith s.settings (s.images.toList.flatMap makes)
      (s.applyToImages .standard option first? second?) := by
  have uniform : Uniform operator (.of option first? second?)
      fun t => t.settings = s.settings ∧ t.world = s.world :=
    .of_not_counting named other s.settings s.world
  have pass : s.applyToImages .standard option first? second? =
      s.passOver .standard operator (.of option first? second?) s.images.order := by
    simp [applyToImages, named, nonempty]
  constructor
  case goesOn => rw [pass, passOver_standard_goesOn named]
  case settings =>
    rw [pass]
    exact (passOver_kept _ uniform.kept ⟨rfl, rfl⟩ s.images.order).1
  case whole =>
    obtain ⟨visits, visited, -⟩ := applyToImages_visits .standard option first? second? named
      whole nonempty
    exact visited.whole
  case images =>
    rw [(applyToImages_standard first? second? named whole).2,
      uniform.pass_made named ⟨rfl, rfl⟩ ⟨rfl, rfl⟩ whole, List.flatMap_def]
    simp only [made]

/-! ## Steps -/

theorem finish_images
    (s : Session σ) :
    s.finish.images = s.images := by
  unfold finish
  split
  · rfl
  · exact (catchIncidents_sameLists _ false).images

/-- Both steps of a command line are done, the second with what the first left. -/
theorem run_images_of_steps
    {tokens : List String}
    {first second : CommandStep}
    (steps : CommandStep.parse tokens = [first, second])
    {settings : Settings}
    {images images' : List Image}
    {s : Session Disk}
    (firstDone : GoesOnWith settings images (s.perform .standard first))
    (secondDone : ∀ t : Session Disk, t.settings = settings → t.images.Whole →
      t.images.toList = images →
      ∃ settings', GoesOnWith settings' images' (t.perform .standard second)) :
    (s.run .standard tokens).2.images.toList = images' := by
  have caught (t : Session Disk) : (t.catchIncidents false).2.settings = t.settings ∧
      (t.catchIncidents false).2.images = t.images := by
    unfold catchIncidents
    dsimp only
    split <;> exact ⟨rfl, rfl⟩
  obtain ⟨goesOn, same, whole, left⟩ := firstDone
  rw [run_eq_runSteps, steps, runSteps_cons]
  generalize s.perform .standard first = ended at *
  obtain ⟨_, between⟩ := ended
  cases goesOn
  obtain ⟨settings', done⟩ := secondDone (between.catchIncidents false).2
    (by rw [(caught between).1, same]) (by rwa [(caught between).2])
    (by rw [(caught between).2, left])
  dsimp only
  rw [runSteps_cons]
  generalize perform .standard (between.catchIncidents false).2 second = ended at *
  obtain ⟨_, last⟩ := ended
  cases done.goesOn
  dsimp only
  rw [runSteps_nil, finish_images, (caught last).2]
  exact done.images

/-- The selection of channels is a setting that is accepted. -/
theorem applySetting_channel
    (s : Session Disk)
    {text : String}
    {channels : ChannelSet}
    (accepted : ChannelSet.parse text = .ok channels) :
    s.applySetting .standard "-channel" (some text) =
      (none, { s with settings := s.settings.selecting channels (some text) }) := by
  rw [applySetting_eq]
  extract_lets inv
  rw [show SettingOption.named? inv.name = some .channel from rfl]
  dsimp only
  rw [actOnSetting, SettingOption.channel_of_normal rfl rfl accepted]
  rfl

/-- Channels are selected, and every image takes up the selection. -/
theorem select_goesOnWith
    {s : Session Disk}
    (whole : s.images.Whole)
    {text : String}
    {channels : ChannelSet}
    (accepted : ChannelSet.parse text = .ok channels) :
    GoesOnWith (s.settings.selecting channels (some text))
      (s.images.toList.map fun image => (s.settings.image.sync image).withChannels channels)
      (s.apply .standard .settingAndImage "-channel" (some text) none) := by
  rw [apply, applySetting_channel s accepted]
  dsimp only
  cases empty : s.images.isEmpty with
  | true =>
      have none : s.images.toList = [] := by
        rwa [whole.isEmpty_toList, List.isEmpty_iff] at empty
      rw [if_pos rfl, none]
      exact ⟨rfl, rfl, whole, none⟩
  | false =>
      rw [if_neg Bool.false_ne_true, List.map_eq_flatMap]
      have named : ImageOperator.named? (Invocation.of "-channel" (some text) none).name =
          some .channel := rfl
      refine pass_goesOnWith "-channel" (some text) none named (show "channel" ∉ _ by decide)
        (s := { s with settings := s.settings.selecting channels (some text) }) whole empty
        fun image => ?_
      rw [← s.settings.sync_selecting channels (some text) image]
      rfl

section Channels

variable {s : Session Disk} (whole : s.images.Whole) (nonempty : s.images.isEmpty = false)

include whole nonempty

/-- The selection is taken back, and every image is separated into all channels. -/
theorem takeBack_goesOnWith :
    GoesOnWith (s.settings.selecting .full none)
      (s.images.toList.flatMap fun image =>
        Layers.separate .full ((s.settings.image.sync image).withChannels .full))
      (s.apply .standard .settingAndImage "+channel" none none) := by
  have set : s.applySetting .standard "+channel" none =
      (none, { s with settings := s.settings.selecting .full none }) := by
    rw [applySetting_eq]
    extract_lets inv
    rw [show SettingOption.named? inv.name = some .channel from rfl]
    dsimp only
    rw [actOnSetting, SettingOption.channel_of_takenBack rfl]
    rfl
  rw [apply, set]
  dsimp only
  rw [if_neg (by simp [nonempty])]
  have named : ImageOperator.named? (Invocation.of "+channel" none none).name = some .channel := rfl
  refine pass_goesOnWith "+channel" none none named (by decide)
    (s := { s with settings := s.settings.selecting .full none }) whole nonempty fun image => ?_
  rw [← s.settings.sync_selecting .full none image]
  rfl

/-- Every image is separated into the selected channels. -/
theorem separate_goesOnWith :
    GoesOnWith s.settings
      (s.images.toList.flatMap fun image =>
        Layers.separate s.settings.image.channels (s.settings.image.sync image))
      (s.apply .standard .image "-separate" none none) := by
  have named : ImageOperator.named? (Invocation.of "-separate" none none).name =
      some .separate := rfl
  exact pass_goesOnWith "-separate" none none named (by decide) whole nonempty
    fun image => List.map_id _

end Channels

/-! ## Command lines -/

/-- The images that separating some channels of the images leaves, once they have taken up the
settings with that selection twice. -/
def separated (s : Session σ) (channels : ChannelSet) : List Image :=
  s.images.toList.flatMap fun image =>
    Layers.separate channels
      ((s.settings.image.sync (s.settings.image.sync image)).withChannels channels)

/-- As many images are left for each image as channels are separated. -/
theorem length_separated
    (s : Session σ)
    (channels : ChannelSet) :
    (s.separated channels).length = s.images.toList.length * channels.count := by
  simp [separated, Layers.separate, ChannelSet.count]

/-- A selection of channels is followed by one more step. -/
theorem parse_channel
    (text : String)
    {token : String}
    {step : CommandStep}
    (last : CommandStep.next token [] = (step, [])) :
    CommandStep.parse ["-channel", text, token] =
      [.apply (Catalog.one "channel" .settingAndImage) "-channel" [text], step] := by
  have first : CommandStep.next "-channel" [text, token] =
      (.apply (Catalog.one "channel" .settingAndImage) "-channel" [text], [token]) := rfl
  rw [CommandStep.parse_cons, first, CommandStep.parse_cons, last, CommandStep.parse_nil]

section Runs

variable {s : Session Disk} (whole : s.images.Whole) (nonempty : s.images.isEmpty = false)
  {text : String} {channels : ChannelSet} (accepted : ChannelSet.parse text = .ok channels)

include whole nonempty accepted

/-- A selection of channels is followed by one more step that finds images. -/
theorem run_images_of_channel
    {token : String}
    {step : CommandStep}
    (last : CommandStep.next token [] = (step, []))
    {images : List Image}
    (done : ∀ t : Session Disk, t.images.Whole → t.images.isEmpty = false →
      t.settings = s.settings.selecting channels (some text) →
      t.images.toList = s.images.toList.map (fun image =>
        (s.settings.image.sync image).withChannels channels) →
      ∃ settings, GoesOnWith settings images (t.perform .standard step)) :
    (s.run .standard ["-channel", text, token]).2.images.toList = images := by
  refine run_images_of_steps (parse_channel text last)
    (select_goesOnWith whole accepted) fun t same tWhole left => done t tWhole ?_ same left
  rw [whole.isEmpty_toList] at nonempty
  rw [tWhole.isEmpty_toList, left, List.isEmpty_map, nonempty]

theorem run_separate_images :
    (s.run .standard ["-channel", text, "-separate"]).2.images.toList = s.separated channels := by
  refine run_images_of_channel whole nonempty accepted rfl fun t tWhole tNonempty same left => ?_
  have images : s.separated channels = t.images.toList.flatMap fun image =>
      Layers.separate t.settings.image.channels (t.settings.image.sync image) := by
    rw [left, same, List.flatMap_map]
    simp only [Settings.sync_selecting, ImageSettings.sync_withChannels]
    rfl
  rw [images]
  exact ⟨_, separate_goesOnWith tWhole tNonempty⟩

theorem run_takenBack_images :
    (s.run .standard ["-channel", text, "+channel"]).2.images.toList = s.separated .full := by
  refine run_images_of_channel whole nonempty accepted rfl fun t tWhole tNonempty same left => ?_
  have images : s.separated .full = t.images.toList.flatMap fun image =>
      Layers.separate .full ((t.settings.image.sync image).withChannels .full) := by
    rw [left, same, List.flatMap_map]
    simp only [Settings.sync_selecting, ImageSettings.sync_withChannels]
    rfl
  rw [images]
  exact ⟨_, takeBack_goesOnWith tWhole tNonempty⟩

end Runs

/-- The channels that are separated when the selection is taken back are all channels, whatever was
selected: the images are those of a separation of the selection exactly when that was all
channels. -/
theorem channels_taken_back_are_separated
    {s : Session Disk}
    (whole : s.images.Whole)
    (nonempty : s.images.isEmpty = false)
    {text : String}
    {channels : ChannelSet}
    (accepted : ChannelSet.parse text = .ok channels) :
    let takenBack := (s.run .standard ["-channel", text, "+channel"]).2.images.toList
    let separated := (s.run .standard ["-channel", text, "-separate"]).2.images.toList
    takenBack = s.separated .full ∧ separated = s.separated channels ∧
      (takenBack = separated ↔ channels = .full) := by
  intro takenBack separated
  have takenBack_eq : takenBack = s.separated .full :=
    run_takenBack_images whole nonempty accepted
  have separated_eq : separated = s.separated channels :=
    run_separate_images whole nonempty accepted
  refine ⟨takenBack_eq, separated_eq, ?_⟩
  rw [takenBack_eq, separated_eq]
  constructor
  · intro same
    have counts := congrArg List.length same
    rw [length_separated, length_separated] at counts
    have some : 0 < s.images.toList.length := by
      rw [whole.isEmpty_toList] at nonempty
      simpa [List.length_pos_iff] using nonempty
    exact ChannelSet.eq_full_of_count (Nat.eq_of_mul_eq_mul_left some counts.symm)
  · rintro rfl
    rfl

/-- With a selection of all four channels it comes to the same. -/
theorem all_channels_taken_back :
    let s : Session Disk := { images := .ofList [default, default], world := {} }
    s.images.Whole ∧ s.images.isEmpty = false ∧ ChannelSet.parse "rgba" = .ok .full ∧
      (s.run .standard ["-channel", "rgba", "+channel"]).2.images.toList =
        (s.run .standard ["-channel", "rgba", "-separate"]).2.images.toList := by
  intro s
  have whole : s.images.Whole := .ofList _
  have accepted : ChannelSet.parse "rgba" = .ok .full := by decide
  exact ⟨whole, rfl, accepted,
    (channels_taken_back_are_separated whole rfl accepted).2.2.mpr rfl⟩

/-- One channel of one image is selected, and four images come out instead of one. -/
theorem red_taken_back :
    let s : Session Disk := { images := .ofList [default], world := {} }
    s.images.Whole ∧ s.images.isEmpty = false ∧
      ChannelSet.parse "R" = .ok (.single .red) ∧
      ¬ (s.run .standard ["-channel", "R", "+channel"]).2.images.toList =
        (s.run .standard ["-channel", "R", "-separate"]).2.images.toList := by
  intro s
  have whole : s.images.Whole := .ofList _
  have accepted : ChannelSet.parse "R" = .ok (.single .red) := by decide
  refine ⟨whole, rfl, accepted, fun same => ?_⟩
  rw [run_takenBack_images whole rfl accepted, run_separate_images whole rfl accepted] at same
  have counts := congrArg List.length same
  rw [length_separated, length_separated] at counts
  exact absurd counts (by decide)

end Session
end Darkroom
