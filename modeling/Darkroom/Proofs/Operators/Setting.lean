import Darkroom.Operators.Setting
import Darkroom.Proofs.Operators.Plans
import Darkroom.Proofs.Settings

/-!
# What settings reach

A setting reaches the part of its name, if there is one, and leaves all other parts in step.  Most
settings also leave their own part in step: they keep the text that it would be rebuilt from.  Some
do not.  `+render` and `+dither` keep no text, a relative weight is rebuilt from the normal weight
and not from the one in force, numbers are kept with the blanks around them and rebuilt without
looking past these, and definitions change the text of an option and nothing else.
-/

namespace Darkroom

open Settings (Part Reaches)

namespace FontWeight

/-- The weight depends on the one in force. -/
def isRelative (text : String) : Bool :=
  let word := lowered (trimmed text)
  word == "bolder" || word == "lighter"

/-- A weight that is not relative is the same at all times. -/
theorem parse?_of_not_relative
    {text : String}
    (absolute : isRelative text = false)
    (current current' : UInt32) :
    parse? text current = parse? text current' := by
  unfold isRelative at absolute
  unfold parse?
  split <;> simp_all

end FontWeight

namespace Invocation

variable (inv : Invocation)

/-- The option whose text a definition changes. -/
def definedKey? : Option String :=
  inv.first?.map fun text =>
    match Text.cut? '=' text.toList with
    | some (key, _) => String.ofList key
    | none => text

/-- The part that a setting reaches.  Another name of the color under text is `box`. -/
def part? : Option Part :=
  if inv.name = "box" then some .underColor
  else if inv.name = "define" then inv.definedKey?.bind Part.ofText?
  else Part.ofKey? inv.name

/-- There are blanks around a text. -/
def isPadded (text : String) : Bool :=
  Text.trim text.toList != text.toList

/-- A setting that need not leave the part that it reaches in step. -/
def isLoose : Bool :=
  match inv.name with
  | "render" | "dither" => !inv.normal
  | "weight" => inv.normal && inv.first?.any FontWeight.isRelative
  | "interline-spacing" | "interword-spacing" | "kerning" | "strokewidth" | "treedepth" =>
      inv.normal && inv.first?.any isPadded
  | "define" => true
  | _ => false

/-- A setting that names the image of a pattern. -/
def namesPattern : Bool :=
  inv.normal && inv.first?.any fun text =>
    inv.name == "tile" ||
      (inv.name == "fill" || inv.name == "stroke") && (Color.parse text).toOption.isNone

end Invocation

namespace SettingPlan

/-- The settings of a plan reach one part at most.  A pattern is installed only if it was named. -/
def Touches (part? : Option Part) (inv : Invocation) (s : Settings) : SettingPlan → Prop
  | .set s' => Reaches part? s s'
  | .limits _ _ => True
  | .pattern _ _ => inv.namesPattern = true

/-- The settings of a plan leave a part in step. -/
def Settles (p : Part) : SettingPlan → Prop
  | .set s' => p.InStep s'
  | .limits _ _ => True
  | .pattern _ _ => True

end SettingPlan

namespace SettingOption

variable {s : Settings} {inv : Invocation}

/-! ## Parts that are reached -/

/-- A setting touches the part of its name at most. -/
abbrev TouchesOwn (inv : Invocation) (s : Settings) (decision : Except Fault SettingPlan) : Prop :=
  Plans (SettingPlan.Touches (Part.ofKey? inv.name) inv s) decision

/-- A value of the part of a name. -/
theorem reaches_part
    (p : Part)
    (named : inv.name = p.key)
    (value : p.Value)
    (s : Settings) :
    Reaches (Part.ofKey? inv.name) s (p.put s value) := by
  rw [named, p.ofKey?_key]
  exact Settings.reaches_put p value s

/-- A field of the settings for images that nothing is rebuilt from. -/
theorem reaches_aside
    {image : ImageSettings}
    (drawing : DrawingSettings.ofImageSettings image = .ofImageSettings s.image)
    (quantizing : QuantizingSettings.ofImageSettings image = .ofImageSettings s.image) :
    Reaches (Part.ofKey? inv.name) s { s with image } :=
  (Reaches.of_image drawing quantizing).of_none _

theorem plain_touches : TouchesOwn inv s (plain s inv) := by
  unfold plain keepText
  cases inv.textIfNormal with
  | error fault => exact .error fault
  | ok text? => exact .ok (s.reaches_putOption inv.name text?)

theorem numeric_touches : TouchesOwn inv s (numeric s inv) :=
  .ite (.bind fun _ => plain_touches) plain_touches

theorem geometric_touches : TouchesOwn inv s (geometric s inv) :=
  .ite (.bind fun _ => plain_touches) plain_touches

theorem regional_touches : TouchesOwn inv s (regional s inv) :=
  .ite (.bind fun _ => plain_touches) plain_touches

theorem flag_touches : TouchesOwn inv s (flag s inv) :=
  .ok (s.reaches_putOption inv.name (some _))

theorem switch_touches
    {put : Bool → Settings → Settings}
    (each : ∀ on s, Reaches (Part.ofKey? inv.name) s (put on s)) :
    TouchesOwn inv s (switch put s inv) :=
  .ok (each inv.normal s)

theorem keyword_touches
    {κ : Type}
    [Keyword κ]
    {put : Option κ → Settings → Settings}
    (each : ∀ k? s, Reaches (Part.ofKey? inv.name) s (put k? s)) :
    TouchesOwn inv s (keyword κ put s inv) :=
  .ite
    (.bind fun k => .bind fun text =>
      .ok ((s.reaches_putOption inv.name (some text)).trans (each (some k) _)))
    (.ok ((s.reaches_putOption inv.name none).trans (each none _)))

theorem keywordText_touches
    {κ : Type}
    [Keyword κ] :
    TouchesOwn inv s (keywordText κ s inv) :=
  keyword_touches fun _ _ => ⟨id, fun _ _ => id⟩

theorem keywordOr_touches
    {κ : Type}
    [Keyword κ]
    [Inhabited κ]
    {put : κ → Settings → Settings}
    (each : ∀ k s, Reaches (Part.ofKey? inv.name) s (put k s)) :
    TouchesOwn inv s (keywordOr κ put s inv) :=
  keyword_touches fun _ s => each _ s

theorem color_touches
    {standard : String}
    {put : Color → Settings → Settings}
    (each : ∀ color s, Reaches (Part.ofKey? inv.name) s (put color s)) :
    TouchesOwn inv s (color standard put s inv) :=
  have kept (text : String) : TouchesOwn inv s
      (Invocation.colorOf text >>= fun color => done (put color (s.setOption inv.name text))) :=
    .bind fun color => .ok ((s.reaches_putOption inv.name (some text)).trans (each color _))
  .ite (.bind kept) (kept standard)

theorem number_touches
    {standard : Float}
    {put : Float → Settings → Settings}
    (each : ∀ x s, Reaches (Part.ofKey? inv.name) s (put x s)) :
    TouchesOwn inv s (number standard put s inv) :=
  .ite
    (.bind fun x => .bind fun text =>
      .ok ((s.reaches_putOption inv.name (some text)).trans (each x _)))
    (.ok ((s.reaches_putOption inv.name none).trans (each standard _)))

theorem word_touches
    {α : Type}
    {word? : List Char → Option α}
    {put : Option α → Settings → Settings}
    (each : ∀ n? s, Reaches (Part.ofKey? inv.name) s (put n? s)) :
    TouchesOwn inv s (word word? put s inv) :=
  .ite (.bind fun n => .ok (each (some n) s)) (.ok (each none s))

theorem textOnly_touches
    {check : String → Except Fault Unit}
    {put : Option String → Settings → Settings}
    (each : ∀ text? s, Reaches (Part.ofKey? inv.name) s (put text? s)) :
    TouchesOwn inv s (textOnly check put s inv) := by
  refine .bind fun text? => ?_
  cases text? with
  | none => exact .ok (each none s)
  | some text => exact .bind fun _ => .ok (each (some text) s)

theorem textToo_touches
    {check : String → Except Fault Unit}
    {put : Option String → Settings → Settings}
    (each : ∀ text? s, Reaches (Part.ofKey? inv.name) s (put text? s)) :
    TouchesOwn inv s (textToo check put s inv) := by
  have kept (text? : Option String) : SettingPlan.Touches (Part.ofKey? inv.name) inv s
      (.set ((put text? s).putOption inv.name text?)) :=
    (each text? s).trans (Settings.reaches_putOption inv.name text? _)
  refine .bind fun text? => ?_
  cases text? with
  | none => exact .ok (kept none)
  | some text => exact .bind fun _ => .ok (kept (some text))

theorem parsed_touches
    {α : Type}
    {parse? : Settings → String → Option α}
    {standard : α}
    {put : α → Settings → Settings}
    (each : ∀ a s, Reaches (Part.ofKey? inv.name) s (put a s)) :
    TouchesOwn inv s (parsed parse? standard put s inv) :=
  .ite
    (.bind fun text => .bind fun a =>
      .ok ((each a s).trans (Settings.reaches_putOption inv.name (some text) _)))
    (.ok ((each standard s).trans (Settings.reaches_putOption inv.name none _)))

theorem paint_touches
    {putColor : Color → DrawingSettings → DrawingSettings}
    {putPattern : Image → DrawingSettings → DrawingSettings}
    (named : inv.name = "fill" ∨ inv.name = "stroke")
    (each : ∀ color s, Reaches (Part.ofKey? inv.name) s (onDrawing s (putColor color))) :
    TouchesOwn inv s (paint putColor putPattern s inv) := by
  have colored (text : String) (color : Color) : SettingPlan.Touches (Part.ofKey? inv.name) inv s
      (.set (onDrawing (s.setOption inv.name text) (putColor color))) :=
    (s.reaches_putOption inv.name (some text)).trans (each color _)
  unfold paint
  extract_lets painted
  have settled (text : String) (allowed : (Color.parse text).toOption = none →
      inv.namesPattern = true) :
      TouchesOwn inv s (painted text) := by
    dsimp only [painted]
    cases parsed : Color.parse text with
    | ok color => exact .ok (colored text color)
    | error unrecognized => exact .ok (allowed (by rw [parsed]; rfl))
  cases normal : inv.normal with
  | false => exact settled "none" nofun
  | true =>
      rw [if_pos rfl]
      unfold Invocation.first
      cases given : inv.first? with
      | none => exact .error _
      | some text =>
          refine settled text fun unrecognized => ?_
          simp [Invocation.namesPattern, normal, given, named, unrecognized]

theorem tile_touches
    (named : inv.name = "tile") :
    TouchesOwn inv s (tile s inv) := by
  unfold tile
  cases normal : inv.normal with
  | false =>
      have removed : Reaches none s (s.removeOption "tile") := s.reaches_putOption "tile" none
      exact .ok ((removed.trans (Settings.reaches_fillPattern _)).of_none _)
  | true =>
      rw [if_pos rfl]
      unfold Invocation.first
      cases given : inv.first? with
      | none => exact .error _
      | some path =>
          have pattern : inv.namesPattern = true := by
            simp [Invocation.namesPattern, normal, given, named]
          exact .ok pattern

theorem channel_touches : TouchesOwn inv s (channel s inv) := by
  have kept (channels : ChannelSet) (text? : Option String) : Reaches none s
      ((onImage s fun i => { i with channels }).putOption "channel" text?) := by
    have changed : Reaches none s (onImage s fun i => { i with channels }) := .of_image rfl rfl
    exact changed.trans (Settings.reaches_putOption "channel" text? _)
  exact .ite
    (.bind fun text => .bind fun channels => .ok ((kept channels (some text)).of_none _))
    (.ok ((kept default none).of_none _))

theorem page_touches : TouchesOwn inv s (page s inv) := by
  have kept (page? : Option String) : Reaches none s
      ((onImage s fun i => { i with page := page? }).putOption "page" page?) := by
    have changed : Reaches none s (onImage s fun i => { i with page := page? }) :=
      .of_image rfl rfl
    exact changed.trans (Settings.reaches_putOption "page" page? _)
  exact .ite (.bind fun _ => .bind fun page => .ok ((kept (some page)).of_none _))
    (.ok ((kept none).of_none _))

theorem debug_touches : TouchesOwn inv s (debug s inv) := by
  have changed : Reaches none s (onImage s fun i => { i with debug := inv.normal }) :=
    .of_image rfl rfl
  exact .ok ((changed.trans (Settings.reaches_putOption "debug" _ _)).of_none _)

theorem cache_touches : TouchesOwn inv s (cache s inv) :=
  .ite (.bind fun _ => .bind fun _ => .ok trivial) (.ok trivial)

theorem treeDepth_touches
    (named : inv.name = "treedepth") :
    TouchesOwn inv s (treeDepth s inv) := by
  have kept (n : UInt64) : TouchesOwn inv s
      (plain (onQuantizing s fun q => { q with treeDepth := n }) inv) := by
    unfold plain keepText
    cases inv.textIfNormal with
    | error fault => exact .error fault
    | ok text? =>
        exact .ok ((reaches_part .treeDepth named n s).trans
          (Settings.reaches_putOption inv.name text? _))
  exact .ite (.bind kept) (kept 0)

theorem box_touches
    {standard : String} :
    Plans (SettingPlan.Touches (some .underColor) inv s)
      (colorAs "undercolor" standard (fun c s => { s with drawing.underColor := c }) s inv) := by
  have kept (text : String) : Plans (SettingPlan.Touches (some .underColor) inv s)
      (Invocation.colorOf text >>= fun color =>
        done { s.setOption "undercolor" text with drawing.underColor := color }) :=
    .bind fun color => .ok ((s.reaches_putOption "undercolor" (some text)).trans
      (Settings.reaches_put .underColor color _))
  exact .ite (.bind kept) (kept standard)

theorem define_touches :
    Plans (SettingPlan.Touches (inv.definedKey?.bind Part.ofText?) inv s) (define s inv) := by
  unfold define Invocation.first Invocation.definedKey?
  cases inv.first? with
  | none => exact .error _
  | some text =>
      rw [Option.map_some, Option.bind_some]
      change Plans _ (done (if inv.normal then s.setOption _ _ else s.removeOption _))
      cases Text.cut? '=' text.toList with
      | none =>
          cases inv.normal
          · exact .ok (s.reaches_text text none)
          · exact .ok (s.reaches_text text (some ""))
      | some pair =>
          cases inv.normal
          · exact .ok (s.reaches_text (String.ofList pair.1) none)
          · exact .ok (s.reaches_text (String.ofList pair.1) (some (String.ofList pair.2)))

/-- A setting reaches the part of its name at most, but for another name of a part and for
definitions. -/
theorem named?_touchesOwn
    {setting : SettingOption}
    (named : named? inv.name = some setting)
    (notBox : inv.name ≠ "box")
    (notDefine : inv.name ≠ "define")
    (s : Settings) :
    TouchesOwn inv s (setting s inv) := by
  have everyOne : ∀ entry ∈ all, inv.name = entry.1 → entry.1 ≠ "box" → entry.1 ≠ "define" →
      TouchesOwn inv s (entry.2 s inv) := by
    simp only [all, List.forall_mem_cons, List.not_mem_nil, false_imp_iff, implies_true, and_true,
      ne_eq, String.reduceEq, not_false_eq_true, not_true_eq_false, true_imp_iff, true_and]
    exact ⟨fun _ => switch_touches fun _ _ => reaches_aside rfl rfl,
      fun named => parsed_touches (reaches_part .affine named),
      fun _ => switch_touches fun on s => (Settings.reaches_antialias on s).of_none _,
      fun _ => numeric_touches,
      fun _ => textOnly_touches fun _ _ => reaches_aside rfl rfl,
      fun _ => color_touches fun _ _ => reaches_aside rfl rfl,
      fun _ => numeric_touches,
      fun _ => flag_touches,
      fun _ => geometric_touches,
      fun _ => color_touches fun c s => (Settings.reaches_borderColor c s).of_none _,
      fun _ => cache_touches,
      fun _ => plain_touches,
      fun _ => channel_touches,
      fun _ => keywordOr_touches fun _ _ => reaches_aside rfl rfl,
      fun _ => plain_touches,
      fun named => keywordOr_touches (reaches_part .compose named),
      fun _ => keywordOr_touches fun _ _ => reaches_aside rfl rfl,
      fun _ => debug_touches,
      fun _ => geometric_touches,
      fun _ => textToo_touches fun _ _ => reaches_aside rfl rfl,
      fun _ => word_touches fun _ _ => reaches_aside rfl rfl,
      fun named => keywordOr_touches (reaches_part .direction named),
      fun _ => plain_touches,
      fun _ => keywordText_touches,
      fun named => keyword_touches fun _ s => reaches_part .dither named (_, _) s,
      fun named => textToo_touches (reaches_part .encoding named),
      fun _ => keywordOr_touches fun _ _ => reaches_aside rfl rfl,
      fun _ => textOnly_touches fun _ _ => reaches_aside rfl rfl,
      fun named => textToo_touches (reaches_part .family named),
      fun named => paint_touches (.inl named) fun color s =>
        (reaches_part .fill named color s).trans ((Settings.reaches_fillPattern _).of_none _),
      fun _ => keywordText_touches,
      fun _ => textOnly_touches fun text? s => (Settings.reaches_font text? s).of_none _,
      fun _ => plain_touches,
      fun _ => parsed_touches fun _ _ => reaches_aside rfl rfl,
      fun named => keywordOr_touches (reaches_part .gravity named),
      fun _ => geometric_touches,
      fun _ => keywordText_touches,
      fun _ => keywordOr_touches fun _ _ => reaches_aside rfl rfl,
      fun named => number_touches (reaches_part .interlineSpacing named),
      fun _ => keywordText_touches,
      fun named => number_touches (reaches_part .interwordSpacing named),
      fun named => number_touches (reaches_part .kerning named),
      fun _ => plain_touches,
      fun _ => plain_touches,
      fun _ => numeric_touches,
      fun _ => color_touches fun _ _ => reaches_aside rfl rfl,
      fun _ => switch_touches fun _ _ => reaches_aside rfl rfl,
      fun _ => flag_touches,
      fun _ => keywordOr_touches fun _ _ => reaches_aside rfl rfl,
      fun _ => page_touches,
      fun _ => switch_touches fun _ _ => reaches_aside rfl rfl,
      fun _ => number_touches fun x s => (Settings.reaches_pointSize x s).of_none _,
      fun _ => numeric_touches,
      fun _ => plain_touches,
      fun _ => word_touches fun _ _ => reaches_aside rfl rfl,
      fun named => keyword_touches (reaches_part .colorspace named),
      fun _ => switch_touches fun _ _ => reaches_aside rfl rfl,
      fun _ => geometric_touches,
      fun named => switch_touches (reaches_part .render named),
      fun _ => flag_touches,
      fun _ => textOnly_touches fun _ _ => reaches_aside rfl rfl,
      fun _ => word_touches fun _ _ => reaches_aside rfl rfl,
      fun _ => numeric_touches,
      fun _ => textOnly_touches fun _ _ => reaches_aside rfl rfl,
      fun named => keywordOr_touches (reaches_part .stretch named),
      fun named => paint_touches (.inr named) fun color s =>
        (reaches_part .stroke named color s).trans ((Settings.reaches_strokePattern _).of_none _),
      fun named => number_touches (reaches_part .strokeWidth named),
      fun named => keywordOr_touches (reaches_part .style named),
      fun _ => switch_touches fun _ _ => reaches_aside rfl rfl,
      fun _ => flag_touches,
      fun _ => textOnly_touches fun _ _ => reaches_aside rfl rfl,
      tile_touches,
      fun _ => regional_touches,
      fun _ => color_touches fun _ _ => reaches_aside rfl rfl,
      treeDepth_touches,
      fun _ => keywordOr_touches fun _ _ => reaches_aside rfl rfl,
      fun named => color_touches (reaches_part .underColor named),
      fun _ => keywordOr_touches fun _ _ => reaches_aside rfl rfl,
      fun _ => switch_touches fun on s => (Settings.reaches_verbose on s).of_none _,
      fun _ => textOnly_touches fun _ _ => reaches_aside rfl rfl,
      fun _ => keywordOr_touches fun _ _ => reaches_aside rfl rfl,
      fun named => parsed_touches (reaches_part .weight named),
      fun _ => geometric_touches⟩
  obtain ⟨before, behind, split, -⟩ := List.lookup_eq_some_iff.mp named
  exact everyOne (inv.name, setting) (split ▸ List.mem_append_right _ List.mem_cons_self) rfl
    notBox notDefine

/-- A setting reaches one part at most, and installs no pattern that was not named. -/
theorem named?_touches
    {setting : SettingOption}
    (named : named? inv.name = some setting)
    (s : Settings) :
    Plans (SettingPlan.Touches inv.part? inv s) (setting s inv) := by
  unfold Invocation.part?
  by_cases isBox : inv.name = "box"
  · rw [isBox] at named
    obtain rfl := Option.some.inj named
    rw [if_pos isBox]
    exact box_touches
  · by_cases isDefine : inv.name = "define"
    · rw [isDefine] at named
      obtain rfl := Option.some.inj named
      rw [if_neg isBox, if_pos isDefine]
      exact define_touches
    · rw [if_neg isBox, if_neg isDefine]
      exact named?_touchesOwn named isBox isDefine s

/-! ## Parts that are left in step -/

variable {p : Part}

/-- A setting leaves a part in step. -/
abbrev Settles (p : Part) (decision : Except Fault SettingPlan) : Prop :=
  Plans (SettingPlan.Settles p) decision

/-- The text that a keyword was read from. -/
theorem keyword_eq_ok
    {κ : Type}
    [Keyword κ]
    {k : κ}
    (found : inv.keyword κ = .ok k) :
    ∃ text, inv.first? = some text ∧ Keyword.parse? text = some k := by
  unfold Invocation.keyword Invocation.first at found
  cases given : inv.first? with
  | none =>
      rw [given] at found
      cases found
  | some text =>
      rw [given] at found
      change (Keyword.parse text).mapError _ = _ at found
      refine ⟨text, rfl, ?_⟩
      unfold Keyword.parse at found
      unfold Keyword.parse?
      dsimp only at found
      split at found
      · next spelled =>
        cases found
        exact spelled
      · cases found

theorem keyword_settles
    {κ : Type}
    [Keyword κ]
    {put : Option κ → Settings → Settings}
    (named : inv.name = p.key)
    (setTo : ∀ k s, s.image.keyword? κ p.key = some k → p.InStep (put (some k) s))
    (takenBack : inv.normal = false → ∀ s : Settings,
      s.image.option? p.key = none → p.InStep (put none s)) :
    Settles p (keyword κ put s inv) := by
  unfold keyword
  rw [named]
  cases normal : inv.normal with
  | false => exact .ok (takenBack normal _ (s.putOption_option?_self p.key none))
  | true =>
      rw [if_pos rfl]
      cases found : inv.keyword κ with
      | error fault => exact .error fault
      | ok k =>
          obtain ⟨text, given, parsed⟩ := keyword_eq_ok found
          unfold Invocation.first
          rw [given]
          refine .ok (setTo k (s.putOption p.key (some text)) ?_)
          rw [ImageSettings.keyword?, Settings.putOption_option?_self, Option.bind_some, parsed]

theorem keywordOr_settles
    {κ : Type}
    [Keyword κ]
    [Inhabited κ]
    {put : κ → Settings → Settings}
    (named : inv.name = p.key)
    (inStep : ∀ k s, (s.image.keyword? κ p.key).getD default = k → p.InStep (put k s)) :
    Settles p (keywordOr κ put s inv) := by
  refine keyword_settles named (fun k s spelled => inStep k s ?_) fun _ s dropped =>
    inStep default s ?_
  · rw [spelled, Option.getD_some]
  · rw [ImageSettings.keyword?, dropped]
    rfl

theorem first_eq_ok
    {text : String}
    (given : inv.first = .ok text) :
    inv.first? = some text := by
  unfold Invocation.first at given
  split at given
  · next present =>
    cases given
    exact present
  · cases given

/-- What is read from a text without blanks around it is read from the text as it is. -/
theorem trim_of_tight
    {text : String}
    (given : inv.first = .ok text)
    (tight : inv.first?.any Invocation.isPadded = false) :
    Text.trim text.toList = text.toList := by
  simpa [first_eq_ok given, Invocation.isPadded] using tight

/-- A part that is rebuilt from a text is in step if it is what is rebuilt from that text. -/
theorem inStep_of_text
    (p : Part)
    (rebuild : Option String → p.Value)
    (rebuilds : ∀ image, p.get (.rebuilt image) = rebuild (image.option? p.key))
    {text? : Option String}
    (value : p.get (s.putOption p.key text?) = rebuild text?) :
    p.InStep (s.putOption p.key text?) := by
  rw [Part.InStep, rebuilds, Settings.putOption_option?_self]
  exact value

theorem parsed_settles
    {α : Type}
    {parse? : Settings → String → Option α}
    {standard : α}
    {put : α → Settings → Settings}
    (named : inv.name = p.key)
    (rebuild : Option String → p.Value)
    (rebuilds : ∀ image, p.get (.rebuilt image) = rebuild (image.option? p.key))
    (setTo : ∀ text a, inv.normal = true → inv.first? = some text → parse? s text = some a →
      p.get ((put a s).putOption p.key (some text)) = rebuild (some text))
    (takenBack : p.get ((put standard s).putOption p.key none) = rebuild none) :
    Settles p (parsed parse? standard put s inv) := by
  unfold parsed
  rw [named]
  cases normal : inv.normal with
  | false => exact .ok (inStep_of_text p rebuild rebuilds takenBack)
  | true =>
      rw [if_pos rfl]
      cases found : inv.first with
      | error fault => exact .error fault
      | ok text =>
          change Settles p (Invocation.orInvalid text (parse? s text) >>= fun a => _)
          cases read : parse? s text with
          | none => exact .error _
          | some a =>
              have value := setTo text a normal (first_eq_ok found) read
              exact .ok (inStep_of_text p rebuild rebuilds value)

theorem number_settles
    {standard : Float}
    {put : Float → Settings → Settings}
    (named : inv.name = p.key)
    (tight : (inv.normal && inv.first?.any Invocation.isPadded) = false)
    (inStep : ∀ x s, (s.image.number? p.key).getD standard = x → p.InStep (put x s)) :
    Settles p (number standard put s inv) := by
  unfold number Invocation.number
  rw [named]
  cases normal : inv.normal with
  | false =>
      refine .ok (inStep standard (s.putOption p.key none) ?_)
      rw [ImageSettings.number?, Settings.putOption_option?_self]
      rfl
  | true =>
      rw [if_pos rfl]
      cases found : inv.first with
      | error fault => exact .error fault
      | ok text =>
          have unpadded := trim_of_tight found (by simpa [normal] using tight)
          change Settles p (Invocation.numberOf text >>= fun x => _)
          unfold Invocation.numberOf
          cases read : Decimal.number? (Text.trim text.toList) with
          | none => exact .error _
          | some x =>
              refine .ok (inStep x (s.putOption p.key (some text)) ?_)
              rw [ImageSettings.number?, Settings.putOption_option?_self, Option.bind_some,
                ← unpadded, read]
              rfl

theorem treeDepth_settles
    (named : inv.name = Part.treeDepth.key)
    (tight : (inv.normal && inv.first?.any Invocation.isPadded) = false) :
    Settles .treeDepth (treeDepth s inv) := by
  let rebuild (text? : Option String) : UInt64 :=
    (text?.bind fun text => Integer.word64? text.toList).getD 0
  unfold treeDepth Invocation.word plain keepText Invocation.textIfNormal
  rw [named]
  cases normal : inv.normal with
  | false => exact .ok (inStep_of_text .treeDepth rebuild (fun _ => rfl) rfl)
  | true =>
      rw [if_pos rfl]
      cases found : inv.first with
      | error fault => exact .error fault
      | ok text =>
          have unpadded := trim_of_tight found (by simpa [normal] using tight)
          change Settles .treeDepth (Invocation.wordOf Integer.word64? text >>= fun n => _)
          unfold Invocation.wordOf
          cases read : Integer.word64? (Text.trim text.toList) with
          | none => exact .error _
          | some n =>
              rw [unpadded] at read
              refine .ok (inStep_of_text .treeDepth rebuild (fun _ => rfl) ?_)
              simp only [rebuild, Option.bind_some, read]
              rfl

theorem textToo_settles
    {check : String → Except Fault Unit}
    {put : Option String → Settings → Settings}
    (named : inv.name = p.key)
    (inStep : ∀ text? s, p.InStep ((put text? s).putOption p.key text?)) :
    Settles p (textToo check put s inv) := by
  unfold textToo
  rw [named]
  refine .bind fun text? => ?_
  cases text? with
  | none => exact .ok (inStep none s)
  | some text => exact .bind fun _ => .ok (inStep (some text) s)

theorem color?_kept
    {text : String}
    {color : Color}
    (read : Color.parse text = .ok color)
    (key : String)
    (fallback : Color)
    (s : Settings) :
    ((s.putOption key (some text)).image.color? key).getD fallback = color := by
  rw [ImageSettings.color?, Settings.putOption_option?_self, Option.bind_some, read]
  rfl

theorem colorAs_settles
    {standard : String}
    {fallback : Color}
    {put : Color → Settings → Settings}
    (inStep : ∀ color s, (s.image.color? p.key).getD fallback = color → p.InStep (put color s)) :
    Settles p (colorAs p.key standard put s inv) := by
  have kept (text : String) : Settles p
      (Invocation.colorOf text >>= fun color => done (put color (s.setOption p.key text))) := by
    unfold Invocation.colorOf
    cases read : Color.parse text with
    | error unrecognized => exact .error _
    | ok color => exact .ok (inStep color _ (color?_kept read p.key fallback s))
  exact .ite (.bind kept) (kept standard)

theorem paint_settles
    {putColor : Color → DrawingSettings → DrawingSettings}
    {putPattern : Image → DrawingSettings → DrawingSettings}
    {fallback : Color}
    (named : inv.name = p.key)
    (inStep : ∀ color s, (s.image.color? p.key).getD fallback = color →
      p.InStep (onDrawing s (putColor color))) :
    Settles p (paint putColor putPattern s inv) := by
  unfold paint
  rw [named]
  extract_lets painted
  have kept (text : String) : Settles p (painted text) := by
    dsimp only [painted]
    cases read : Color.parse text with
    | error unrecognized => exact .ok trivial
    | ok color => exact .ok (inStep color _ (color?_kept read p.key fallback s))
  exact .ite (.bind kept) (kept "none")

/-- A setting that is not loose leaves the part that it reaches in step. -/
theorem named?_settles
    {setting : SettingOption}
    (named : named? inv.name = some setting)
    (own : inv.part? = some p)
    (firm : inv.isLoose = false)
    (s : Settings) :
    Settles p (setting s inv) := by
  obtain ⟨option, name, normal, first?, second?⟩ := inv
  dsimp only at named
  by_cases isBox : name = "box"
  · subst isBox
    obtain rfl := Option.some.inj named
    obtain rfl := Option.some.inj own
    exact colorAs_settles fun _ _ => Eq.symm
  · by_cases isDefine : name = "define"
    · subst isDefine
      cases firm
    · rw [Invocation.part?, if_neg isBox, if_neg isDefine] at own
      obtain rfl : p.key = name := Part.key_of_ofKey? own
      cases p <;> obtain rfl := Option.some.inj named
      case affine =>
        let rebuild (text? : Option String) : Affine := (text?.bind Affine.parse?).getD .identity
        refine parsed_settles rfl rebuild (fun _ => rfl) (fun text a _ _ read => ?_) rfl
        simp only [rebuild, Option.bind_some, read]
        rfl
      case compose => exact keywordOr_settles rfl fun _ _ => Eq.symm
      case direction => exact keywordOr_settles rfl fun _ _ => Eq.symm
      case encoding =>
        refine textToo_settles rfl fun text? s => inStep_of_text .encoding id (fun _ => rfl) ?_
        cases text? <;> rfl
      case family =>
        refine textToo_settles rfl fun text? s => inStep_of_text .family id (fun _ => rfl) ?_
        cases text? <;> rfl
      case fill => exact paint_settles rfl fun _ _ => Eq.symm
      case gravity => exact keywordOr_settles rfl fun _ _ => Eq.symm
      case interlineSpacing => exact number_settles rfl firm fun _ _ => Eq.symm
      case interwordSpacing => exact number_settles rfl firm fun _ _ => Eq.symm
      case kerning => exact number_settles rfl firm fun _ _ => Eq.symm
      case render =>
        obtain rfl : normal = true := by simpa using (show (!normal) = false from firm)
        exact .ok rfl
      case stretch => exact keywordOr_settles rfl fun _ _ => Eq.symm
      case stroke => exact paint_settles rfl fun _ _ => Eq.symm
      case strokeWidth => exact number_settles rfl firm fun _ _ => Eq.symm
      case style => exact keywordOr_settles rfl fun _ _ => Eq.symm
      case underColor => exact colorAs_settles fun _ _ => Eq.symm
      case weight =>
        let rebuild (text? : Option String) : UInt32 :=
          (text?.bind fun text => FontWeight.parse? text FontWeight.normal).getD FontWeight.normal
        refine parsed_settles rfl rebuild (fun _ => rfl) (fun text a isNormal given read => ?_) rfl
        have absolute : FontWeight.isRelative text = false := by
          have firm : (normal && first?.any FontWeight.isRelative) = false := firm
          dsimp only at isNormal given
          rwa [isNormal, given, Bool.true_and, Option.any_some] at firm
        rw [FontWeight.parse?_of_not_relative absolute _ FontWeight.normal] at read
        simp only [rebuild, Option.bind_some, read]
        rfl
      case dither =>
        obtain rfl : normal = true := by simpa using (show (!normal) = false from firm)
        refine keyword_settles rfl (fun method s spelled => ?_) nofun
        exact (congrArg (fun method? : Option Dither =>
          ((method?.map (· != .none)).getD (method != .none), method?.getD default)) spelled).symm
      case colorspace =>
        refine keyword_settles rfl (fun k s spelled => spelled.symm) fun _ s dropped => ?_
        rw [Part.InStep]
        exact (congrArg (fun text? : Option String =>
          text?.bind (Keyword.parse? : String → Option Colorspace)) dropped).symm
      case treeDepth => exact treeDepth_settles rfl firm

end SettingOption
end Darkroom
