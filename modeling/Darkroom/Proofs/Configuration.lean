import Darkroom.Configuration
import Darkroom.Engine.Standard
import Darkroom.Proofs.Settings
import Darkroom.Session.Brackets

/-!
# Configurations that apply

A configuration is checked by the readers of colors and limits before it is applied.  It is applied
as options that take these colors and as limits of these amounts, so what the check accepts, the
options and the limits cannot refuse.
-/

namespace Darkroom
namespace Configuration

/-! ## What is valid -/

/-- A loop that throws at an item with a defect ends well when no item has one. -/
theorem forIn_throw_eq_ok_iff
    {α ε : Type}
    (items : List α)
    (isDefect : α → Bool)
    (fault : α → ε) :
    (forIn items PUnit.unit fun item _ =>
        if isDefect item = true then do
          throw (fault item)
          pure (.yield ⟨⟩)
        else pure (.yield ⟨⟩)) = (.ok ⟨⟩ : Except ε PUnit) ↔
      ∀ item ∈ items, isDefect item = false := by
  induction items with
  | nil => exact iff_of_true rfl (List.forall_mem_nil _)
  | cons item rest inductionHypothesis =>
      rw [List.forIn_cons, List.forall_mem_cons, ← inductionHypothesis]
      cases isDefect item with
      | false => exact (and_iff_right rfl).symm
      | true => exact iff_of_false nofun fun both => nomatch both.1

theorem andThen_eq_ok_iff
    {ε : Type}
    {first next : Except ε PUnit} :
    (first >>= fun _ => next) = .ok ⟨⟩ ↔ first = .ok ⟨⟩ ∧ next = .ok ⟨⟩ := by
  cases first with
  | error fault => exact iff_of_false nofun fun both => nomatch both.1
  | ok _ => exact (and_iff_right rfl).symm

/-- What the texts of a configuration name. -/
structure Reading (c : Configuration) where
  /-- The background color. -/
  background : Color
  /-- The border color. -/
  borderColor : Color
  /-- The color of frames. -/
  matteColor : Color
  /-- The limit on memory. -/
  memory : Limit
  /-- The limit on mapped memory. -/
  map : Limit
  /-- The limit on disk space. -/
  disk : Limit
  background_eq : Color.parse c.background = .ok background
  borderColor_eq : Color.parse c.borderColor = .ok borderColor
  matteColor_eq : Color.parse c.matteColor = .ok matteColor
  memory_eq : Limit.parse? c.memory = some memory
  map_eq : Limit.parse? c.map = some map
  disk_eq : Limit.parse? c.disk = some disk

variable {c : Configuration}

/-- A valid configuration is one whose texts can all be read, and whose level of the log is
known. -/
theorem validate_eq_ok_iff :
    c.validate = .ok () ↔
      Nonempty c.Reading ∧ logLevels.contains (lowered c.logLevel) = true := by
  have colors := forIn_throw_eq_ok_iff c.colors
    (fun entry => (Color.parse entry.2).toOption.isNone)
    (fun entry => ConfigurationError.invalidColor entry.1 entry.2)
  have limits := forIn_throw_eq_ok_iff c.limits
    (fun entry => (Limit.parse? entry.2).isNone)
    (fun entry => ConfigurationError.invalidLimit entry.1 entry.2)
  have readable (text : String) : (Color.parse text).toOption.isNone = false ↔
      ∃ color, Color.parse text = .ok color := by
    cases Color.parse text <;> simp [Except.toOption]
  have present (text : String) : (Limit.parse? text).isNone = false ↔
      ∃ limit, Limit.parse? text = some limit := by
    cases Limit.parse? text <;> simp
  have checked : c.validate = .ok () ↔
      ((∀ entry ∈ c.colors, (Color.parse entry.2).toOption.isNone = false) ∧
        (∀ entry ∈ c.limits, (Limit.parse? entry.2).isNone = false) ∧
        logLevels.contains (lowered c.logLevel) = true) := by
    rw [← colors, ← limits]
    refine andThen_eq_ok_iff.trans (and_congr_right fun _ =>
      andThen_eq_ok_iff.trans (and_congr_right fun _ => ?_))
    split
    · next known => exact iff_of_true rfl known
    · next unknown => exact iff_of_false nofun unknown
  simp only [checked, Configuration.colors, Configuration.limits, List.forall_mem_cons, readable,
    present]
  constructor
  · rintro ⟨⟨⟨background, background_eq⟩, ⟨borderColor, borderColor_eq⟩,
      ⟨matteColor, matteColor_eq⟩, -⟩, ⟨⟨memory, memory_eq⟩, ⟨map, map_eq⟩, ⟨disk, disk_eq⟩, -⟩,
      known⟩
    exact ⟨⟨background, borderColor, matteColor, memory, map, disk, background_eq, borderColor_eq,
      matteColor_eq, memory_eq, map_eq, disk_eq⟩, known⟩
  · rintro ⟨⟨r⟩, known⟩
    exact ⟨⟨⟨_, r.background_eq⟩, ⟨_, r.borderColor_eq⟩, ⟨_, r.matteColor_eq⟩,
        List.forall_mem_nil _⟩,
      ⟨⟨_, r.memory_eq⟩, ⟨_, r.map_eq⟩, ⟨_, r.disk_eq⟩, List.forall_mem_nil _⟩, known⟩

end Configuration

/-! ## Options that decide on settings -/

namespace SettingOption

/-- An option decides on settings. -/
def Decides (option : String) (first? : Option String) (s s' : Settings) : Prop :=
  let inv := Invocation.of option first? none
  ∃ setting, named? inv.name = some setting ∧ setting s inv = .ok (.set s')

/-- Options decide on settings in turn, each starting from those of the one before. -/
inductive Chain : List (String × Option String) → Settings → Settings → Prop where
  | nil (s : Settings) : Chain [] s s
  | cons
      {option : String}
      {first? : Option String}
      {rest : List (String × Option String)}
      {s s' s'' : Settings}
      (decides : Decides option first? s s')
      (follows : Chain rest s' s'') :
      Chain ((option, first?) :: rest) s s''

/-- A color that can be read is taken over, and its text is kept. -/
theorem color_of_parsed
    {inv : Invocation}
    {text : String}
    {color : Color}
    (normal : inv.normal = true)
    (given : inv.first? = some text)
    (read : Color.parse text = .ok color)
    (standard : String)
    (put : Color → Settings → Settings)
    (s : Settings) :
    SettingOption.color standard put s inv =
      .ok (.set (put color (s.setOption inv.name text))) := by
  unfold SettingOption.color colorAs Invocation.colorOf Invocation.first
  rw [if_pos normal, given]
  dsimp only [bind, Except.bind]
  rw [read]
  rfl

end SettingOption

namespace Session

variable {σ : Type} (engine : Engine σ)

/-- An option that decides on settings is applied without a fault or a report. -/
theorem applySetting_of_decides
    {option : String}
    {first? : Option String}
    {s : Session σ}
    {settings : Settings}
    (decides : SettingOption.Decides option first? s.settings settings) :
    s.applySetting engine option first? = (none, { s with settings }) := by
  obtain ⟨setting, named, decided⟩ := decides
  unfold applySetting
  extract_lets inv
  rw [named]
  dsimp only
  rw [decided]
  rfl

/-- Options that decide on settings in turn are applied without a fault or a report. -/
theorem applySettings_of_chain
    {options : List (String × Option String)}
    {before settings : Settings}
    (chain : SettingOption.Chain options before settings)
    (s : Session σ) :
    { s with settings := before }.applySettings engine options = (none, { s with settings }) := by
  induction chain with
  | nil before => rfl
  | cons decides _ inductionHypothesis =>
      rw [applySettings, applySetting_of_decides engine decides]
      exact inductionHypothesis

end Session

/-! ## What a configuration puts in force -/

namespace Configuration

/-- The settings with a background color and its text. -/
def setBackground (text : String) (color : Color) (s : Settings) : Settings :=
  let s := s.setOption "background" text
  { s with image.background := color }

/-- The settings with a border color and its text. -/
def setBorderColor (text : String) (color : Color) (s : Settings) : Settings :=
  let s := s.setOption "bordercolor" text
  { s with image.borderColor := color, drawing.borderColor := color }

/-- The settings with a color of frames and its text. -/
def setMatteColor (text : String) (color : Color) (s : Settings) : Settings :=
  let s := s.setOption "mattecolor" text
  { s with image.matteColor := color }

namespace Reading

variable {c : Configuration} (r : c.Reading)

/-- The settings with the colors that were read. -/
def colored (s : Settings) : Settings :=
  setMatteColor c.matteColor r.matteColor
    (setBorderColor c.borderColor r.borderColor (setBackground c.background r.background s))

/-- The settings that a configuration puts in force. -/
def settings : Settings :=
  let s := r.colored .initial
  if c.respectsBrackets then s.setOption "respect-parenthesis" "true" else s

/-- The options of a configuration decide on its settings. -/
theorem chain_options :
    SettingOption.Chain c.options .initial r.settings := by
  have first (s : Settings) : SettingOption.Decides "-background" (some c.background) s
      (setBackground c.background r.background s) :=
    ⟨_, rfl, SettingOption.color_of_parsed rfl rfl r.background_eq _ _ s⟩
  have second (s : Settings) : SettingOption.Decides "-bordercolor" (some c.borderColor) s
      (setBorderColor c.borderColor r.borderColor s) :=
    ⟨_, rfl, SettingOption.color_of_parsed rfl rfl r.borderColor_eq _ _ s⟩
  have third (s : Settings) : SettingOption.Decides "-mattecolor" (some c.matteColor) s
      (setMatteColor c.matteColor r.matteColor s) :=
    ⟨_, rfl, SettingOption.color_of_parsed rfl rfl r.matteColor_eq _ _ s⟩
  have fourth (s : Settings) : SettingOption.Decides "-respect-parenthesis" none s
      (s.setOption "respect-parenthesis" "true") :=
    ⟨_, rfl, rfl⟩
  refine .cons (first _) (.cons (second _) (.cons (third _) ?_))
  unfold settings
  cases c.respectsBrackets with
  | false => exact .nil _
  | true => exact .cons (fourth _) (.nil _)

/-- The colors that were read are in force. -/
theorem settings_colors :
    r.settings.image.background = r.background ∧
      r.settings.image.borderColor = r.borderColor ∧
      r.settings.drawing.borderColor = r.borderColor ∧
      r.settings.image.matteColor = r.matteColor := by
  unfold settings
  cases c.respectsBrackets <;> exact ⟨rfl, rfl, rfl, rfl⟩

/-- The texts of the colors leave the texts of all other options alone. -/
theorem colored_option?
    {key : String}
    (other : key ∉ ["background", "bordercolor", "mattecolor"])
    (s : Settings) :
    (r.colored s).image.option? key = s.image.option? key := by
  simp only [List.mem_cons, List.not_mem_nil, or_false, not_or] at other
  obtain ⟨notBackground, notBorderColor, notMatteColor⟩ := other
  exact (Settings.putOption_option? _ notMatteColor (some c.matteColor)).trans <|
    (Settings.putOption_option? _ notBorderColor (some c.borderColor)).trans <|
      Settings.putOption_option? s notBackground (some c.background)

theorem settings_respectsBrackets :
    r.settings.image.respectsBrackets = c.respectsBrackets := by
  unfold settings ImageSettings.respectsBrackets
  cases c.respectsBrackets with
  | false =>
      have untouched : (r.colored .initial).image.option? "respect-parenthesis" = none :=
        r.colored_option? (by decide) .initial
      rw [if_neg Bool.false_ne_true, untouched]
  | true =>
      have kept (s : Settings) : (s.setOption "respect-parenthesis" "true").image.option?
          "respect-parenthesis" = some "true" :=
        Settings.putOption_option?_self s _ (some "true")
      rw [if_pos rfl, kept]
      rfl

/-- The limits of a configuration are set, in the order of their keys. -/
theorem install_eq
    (limits : Limits) :
    c.install limits =
      ((limits.set .memory r.memory).set .map r.map).set .disk r.disk := by
  simp only [install, Configuration.limits, List.foldl_cons, List.foldl_nil, r.memory_eq, r.map_eq,
    r.disk_eq]

end Reading
end Configuration

/-! ## A configuration that applies -/

namespace Session

variable {σ : Type} (engine : Engine σ)

/-- The limits of a configuration follow its options when these report nothing fatal. -/
theorem configure_of_applied
    {c : Configuration}
    {s after : Session σ}
    (applied : s.applySettings engine c.options = (none, after)) :
    s.configure engine c = (none, { after with limits := c.install after.limits }) := by
  unfold configure
  rw [applied]

/-- A configuration that is valid is applied to a new session without a fault or a report: its
colors, its word on round brackets and its limits are in force, and the other limits stay. -/
theorem valid_configuration_applies
    {c : Configuration}
    (valid : c.validate = .ok ())
    (limits : Limits)
    (log : IncidentLog)
    (world : σ) :
    let fresh : Session σ := { limits, log, world }
    let ended := fresh.configure engine c
    let after := ended.2
    ended.1 = none ∧
      after = { fresh with settings := after.settings, limits := after.limits } ∧
      (Color.parse c.background = .ok after.settings.image.background ∧
        Color.parse c.borderColor = .ok after.settings.image.borderColor ∧
        Color.parse c.borderColor = .ok after.settings.drawing.borderColor ∧
        Color.parse c.matteColor = .ok after.settings.image.matteColor) ∧
      after.settings.image.respectsBrackets = c.respectsBrackets ∧
      (Limit.parse? c.memory = some (after.limits.limitOf .memory) ∧
        Limit.parse? c.map = some (after.limits.limitOf .map) ∧
        Limit.parse? c.disk = some (after.limits.limitOf .disk)) ∧
      ∀ resource ∉ [.memory, .map, .disk],
        after.limits.limitOf resource = limits.limitOf resource := by
  intro fresh ended after
  obtain ⟨⟨r⟩, -⟩ := Configuration.validate_eq_ok_iff.mp valid
  have applied : fresh.applySettings engine c.options =
      (none, { fresh with settings := r.settings }) :=
    applySettings_of_chain engine r.chain_options fresh
  have configured : ended = (none, { fresh with
      settings := r.settings
      limits := ((limits.set .memory r.memory).set .map r.map).set .disk r.disk }) := by
    rw [← r.install_eq limits]
    exact configure_of_applied engine applied
  clear_value ended
  subst configured
  refine ⟨rfl, rfl, ?_, r.settings_respectsBrackets, ⟨r.memory_eq, r.map_eq, r.disk_eq⟩, ?_⟩
  · obtain ⟨background, borderColor, drawn, matteColor⟩ := r.settings_colors
    exact ⟨r.background_eq.trans (congrArg _ background.symm),
      r.borderColor_eq.trans (congrArg _ borderColor.symm),
      r.borderColor_eq.trans (congrArg _ drawn.symm),
      r.matteColor_eq.trans (congrArg _ matteColor.symm)⟩
  · intro resource other
    simp only [List.mem_cons, List.not_mem_nil, or_false, not_or] at other
    exact (if_neg other.2.2).trans ((if_neg other.2.1).trans (if_neg other.1))

/-- Wheat behind the images, brackets that respect settings, and a quarter of a gibibyte. -/
def wheatConfiguration : Configuration where
  background := "wheat"
  respectsBrackets := true
  memory := "256MiB"

/-- What the texts of the wheat configuration name. -/
def wheatReading : wheatConfiguration.Reading where
  background := ⟨245, 222, 179, 255⟩
  borderColor := ⟨0xdf, 0xdf, 0xdf, 255⟩
  matteColor := ⟨0xbd, 0xbd, 0xbd, 255⟩
  memory := .amount 268435456.0
  map := .unlimited
  disk := .unlimited
  background_eq := rfl
  borderColor_eq := rfl
  matteColor_eq := rfl
  memory_eq := rfl
  map_eq := rfl
  disk_eq := rfl

/-- The wheat configuration is applied. -/
theorem wheat_configuration_applies :
    let after := (configure .standard wheatConfiguration { world := (default : Disk) }).2
    wheatConfiguration.validate = .ok () ∧
      after.log = {} ∧
      after.settings.image.background = ⟨245, 222, 179, 255⟩ ∧
      after.settings.image.respectsBrackets = true ∧
      after.limits.limitOf .memory = .amount 268435456.0 := by
  intro after
  have valid : wheatConfiguration.validate = .ok () :=
    Configuration.validate_eq_ok_iff.mpr ⟨⟨wheatReading⟩, by decide⟩
  obtain ⟨-, kept, ⟨background, -⟩, coupled, ⟨memory, -⟩, -⟩ :=
    valid_configuration_applies .standard valid .none {} (default : Disk)
  exact ⟨valid, congrArg Session.log kept,
    Except.ok.inj (background.symm.trans wheatReading.background_eq), coupled,
    Option.some.inj (memory.symm.trans wheatReading.memory_eq)⟩

end Session
end Darkroom
