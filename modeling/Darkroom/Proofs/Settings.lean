import Darkroom.Proofs.Table
import Darkroom.Settings

/-!
# Parts of the settings

The settings for drawing and for reducing colors can be rebuilt from the settings for images.  Most
parts of them have an option each and are rebuilt from its text; such a part is in step when it is
what it would be rebuilt as.  The others are kept beside a field of the settings for images.
-/

namespace Darkroom

/-- The options that images take up. -/
def ImageSettings.takenUp : List String :=
  ["compose", "delay", "dispose", "filter", "gravity", "interpolate", "loop"]

/-! ## Images in line with the settings -/

namespace ImageSettings

theorem overrideWith_overrideWith
    {κ : Type}
    [DecidableEq κ]
    (undefined setting current : κ) :
    overrideWith undefined setting (overrideWith undefined setting current) =
      overrideWith undefined setting current := by
  unfold overrideWith
  split <;> rfl

theorem timing_timing
    (s : ImageSettings)
    (delay ticks : UInt64) :
    s.timing (s.timing delay ticks).1 (s.timing delay ticks).2 = s.timing delay ticks := by
  unfold timing
  split
  · rfl
  · next g _ =>
    cases second : g.sigma with
    | none => simp [second]
    | some sigma => by_cases rate : 0.0 < sigma <;> simp [second, rate]

/-- Images in line with the settings stay as they are. -/
theorem sync_sync
    (s : ImageSettings)
    (image : Image) :
    s.sync (s.sync image) = s.sync image := by
  have kept {α : Type} (set? : Option α) (current : α) :
      set?.getD (set?.getD current) = set?.getD current := by
    cases set? <;> rfl
  have chosen {α : Type} (set? current? : Option α) :
      (set?.orElse fun _ => set?.orElse fun _ => current?) = set?.orElse fun _ => current? := by
    cases set? <;> rfl
  unfold sync
  simp only [overrideWith_overrideWith, kept, chosen, timing_timing]

end ImageSettings

namespace Settings

variable {s s' s'' : Settings}

/-! ## Options -/

@[simp] theorem putOption_option?_self
    (s : Settings)
    (key : String)
    (value? : Option String) :
    (s.putOption key value?).image.option? key = value? := by
  cases value? with
  | none => exact Table.get?_erase_self _ key
  | some value => exact Table.get?_insert_self _ key value

theorem putOption_option?
    (s : Settings)
    {key other : String}
    (different : other ≠ key)
    (value? : Option String) :
    (s.putOption key value?).image.option? other = s.image.option? other := by
  cases value? with
  | none => exact Table.get?_erase_of_ne _ different
  | some value => exact Table.get?_insert_of_ne _ different value

/-- To write an option once more changes nothing. -/
theorem putOption_putOption
    (s : Settings)
    (key : String)
    (value? : Option String) :
    (s.putOption key value?).putOption key value? = s.putOption key value? := by
  cases value? with
  | none => simp [putOption, removeOption, ImageSettings.removeOption]
  | some value => simp [putOption, setOption, ImageSettings.setOption]

/-- Any other option leaves the attributes of images alone. -/
theorem sync_putOption
    (s : Settings)
    {key : String}
    (other : key ∉ ImageSettings.takenUp)
    (value? : Option String) :
    (s.putOption key value?).image.sync = s.image.sync := by
  have kept : ∀ taken ∈ ImageSettings.takenUp,
      (s.putOption key value?).image.option? taken = s.image.option? taken :=
    fun taken mem => s.putOption_option? (ne_of_mem_of_not_mem mem other) value?
  simp only [ImageSettings.takenUp, List.forall_mem_cons] at kept
  obtain ⟨compose, delay, dispose, filter, gravity, interpolate, loop, -⟩ := kept
  funext image
  simp only [ImageSettings.sync, ImageSettings.timing, ImageSettings.keyword?, compose, delay,
    dispose, filter, gravity, interpolate, loop]
  cases value? <;> rfl

/-! ## Parts -/

/-- A part of the settings that has an option.  Whether text is drawn is not rebuilt from anything,
all other parts are rebuilt from the text of their options. -/
inductive Part where
  | affine | compose | direction | encoding | family | fill | gravity | interlineSpacing
  | interwordSpacing | kerning | render | stretch | stroke | strokeWidth | style | underColor
  | weight | dither | colorspace | treeDepth
deriving DecidableEq

namespace Part

/-- The option of a part. -/
def key : Part → String
  | affine => "affine"
  | compose => "compose"
  | direction => "direction"
  | encoding => "encoding"
  | family => "family"
  | fill => "fill"
  | gravity => "gravity"
  | interlineSpacing => "interline-spacing"
  | interwordSpacing => "interword-spacing"
  | kerning => "kerning"
  | render => "render"
  | stretch => "stretch"
  | stroke => "stroke"
  | strokeWidth => "strokewidth"
  | style => "style"
  | underColor => "undercolor"
  | weight => "weight"
  | dither => "dither"
  | colorspace => "quantize"
  | treeDepth => "treedepth"

/-- All parts. -/
def all : List Part :=
  [ affine, compose, direction, encoding, family, fill, gravity, interlineSpacing,
    interwordSpacing, kerning, render, stretch, stroke, strokeWidth, style, underColor, weight,
    dither, colorspace, treeDepth ]

/-- The part that has an option. -/
def ofKey? (key : String) : Option Part :=
  all.find? fun p => p.key == key

/-- The part that is rebuilt from the text of an option. -/
def ofText? (key : String) : Option Part :=
  (ofKey? key).filter (· ≠ render)

theorem ofKey?_key
    (p : Part) :
    ofKey? p.key = some p := by
  cases p <;> rfl

theorem key_of_ofKey?
    {key : String}
    {p : Part}
    (found : ofKey? key = some p) :
    p.key = key := by
  simpa using List.find?_some found

/-- What a part holds.  Dithering is a switch and a method. -/
def Value : Part → Type
  | affine => Affine
  | compose => Compose
  | direction => Direction
  | encoding | family => Option String
  | fill | stroke | underColor => Color
  | gravity => Gravity
  | interlineSpacing | interwordSpacing | kerning | strokeWidth => Float
  | render => Bool
  | stretch => Stretch
  | style => Style
  | weight => UInt32
  | dither => Bool × Dither
  | colorspace => Option Colorspace
  | treeDepth => UInt64

/-- The value of a part. -/
def get (s : Settings) : (p : Part) → p.Value
  | affine => s.drawing.affine
  | compose => s.drawing.compose
  | direction => s.drawing.direction
  | encoding => s.drawing.encoding
  | family => s.drawing.family
  | fill => s.drawing.fill
  | gravity => s.drawing.gravity
  | interlineSpacing => s.drawing.interlineSpacing
  | interwordSpacing => s.drawing.interwordSpacing
  | kerning => s.drawing.kerning
  | render => s.drawing.render
  | stretch => s.drawing.stretch
  | stroke => s.drawing.stroke
  | strokeWidth => s.drawing.strokeWidth
  | style => s.drawing.style
  | underColor => s.drawing.underColor
  | weight => s.drawing.weight
  | dither => (s.quantizing.dither, s.quantizing.ditherMethod)
  | colorspace => s.quantizing.colorspace
  | treeDepth => s.quantizing.treeDepth

/-- The settings with another value of a part.  The switch for dithering is also kept in the
settings for images. -/
def put (s : Settings) : (p : Part) → p.Value → Settings
  | affine, value => { s with drawing.affine := value }
  | compose, value => { s with drawing.compose := value }
  | direction, value => { s with drawing.direction := value }
  | encoding, value => { s with drawing.encoding := value }
  | family, value => { s with drawing.family := value }
  | fill, value => { s with drawing.fill := value }
  | gravity, value => { s with drawing.gravity := value }
  | interlineSpacing, value => { s with drawing.interlineSpacing := value }
  | interwordSpacing, value => { s with drawing.interwordSpacing := value }
  | kerning, value => { s with drawing.kerning := value }
  | render, value => { s with drawing.render := value }
  | stretch, value => { s with drawing.stretch := value }
  | stroke, value => { s with drawing.stroke := value }
  | strokeWidth, value => { s with drawing.strokeWidth := value }
  | style, value => { s with drawing.style := value }
  | underColor, value => { s with drawing.underColor := value }
  | weight, value => { s with drawing.weight := value }
  | dither, (on, method) =>
      { s with
        image.dither := on
        quantizing.dither := on
        quantizing.ditherMethod := method }
  | colorspace, value => { s with quantizing.colorspace := value }
  | treeDepth, value => { s with quantizing.treeDepth := value }

/-- A part is what it would be rebuilt as. -/
def InStep (s : Settings) (p : Part) : Prop :=
  p.get s = p.get (rebuilt s.image)

/-- Another part notices nothing of a value. -/
theorem inStep_put_iff
    {p other : Part}
    (different : other ≠ p)
    (value : p.Value) :
    other.InStep (p.put s value) ↔ other.InStep s := by
  cases p <;> cases other <;> first | exact Iff.rfl | exact absurd rfl different

/-- A part is in step as long as it has the same value and is rebuilt as the same value. -/
theorem InStep.congr
    {p : Part}
    (inStep : p.InStep s)
    (value : p.get s' = p.get s)
    (again : p.get (rebuilt s'.image) = p.get (rebuilt s.image)) :
    p.InStep s' :=
  value.trans (inStep.trans again.symm)

/-- The text of an option matters to the part that is rebuilt from it alone. -/
theorem get_rebuilt_congr
    {image image' : ImageSettings}
    {p : Part}
    (text : image'.option? p.key = image.option? p.key)
    (dither : image'.dither = image.dither) :
    p.get (rebuilt image') = p.get (rebuilt image) := by
  cases p <;> dsimp only [key] at text <;>
    simp only [get, rebuilt, DrawingSettings.ofImageSettings, QuantizingSettings.ofImageSettings,
      ImageSettings.keyword?, ImageSettings.number?, ImageSettings.color?, text, dither] <;>
    rfl

end Part

/-- What is not rebuilt from texts agrees with the settings for images, and there is no pattern. -/
structure Steady (s : Settings) : Prop where
  antialias : s.drawing.antialias = s.image.antialias
  textAntialias : s.drawing.textAntialias = s.image.antialias
  borderColor : s.drawing.borderColor = s.image.borderColor
  font : s.drawing.font = s.image.font
  pointSize : s.drawing.pointSize = s.image.pointSize
  fillPattern : s.drawing.fillPattern = none
  strokePattern : s.drawing.strokePattern = none
  colorCount : s.quantizing.colorCount = 256
  measureError : s.quantizing.measureError = s.image.verbose

attribute [local ext] Settings DrawingSettings QuantizingSettings

/-- Settings are what they would be rebuilt as if they are steady and all parts are in step. -/
theorem eq_rebuilt_iff :
    s = rebuilt s.image ↔ s.Steady ∧ ∀ p : Part, p.InStep s := by
  constructor
  · intro same
    rw [same]
    exact ⟨⟨rfl, rfl, rfl, rfl, rfl, rfl, rfl, rfl, rfl⟩, fun _ => rfl⟩
  · rintro ⟨steady, inStep⟩
    have dithering := Prod.mk.inj (inStep .dither)
    apply Settings.ext
    · rfl
    · exact DrawingSettings.ext (inStep .affine) steady.antialias steady.textAntialias
        steady.borderColor (inStep .compose) (inStep .direction) (inStep .encoding)
        (inStep .family) (inStep .fill) steady.fillPattern steady.font (inStep .gravity)
        (inStep .interlineSpacing) (inStep .interwordSpacing) (inStep .kerning)
        steady.pointSize (inStep .render) (inStep .stretch) (inStep .stroke)
        steady.strokePattern (inStep .strokeWidth) (inStep .style) (inStep .underColor)
        (inStep .weight)
    · exact QuantizingSettings.ext steady.colorCount (inStep .treeDepth) dithering.1 dithering.2
        (inStep .colorspace) steady.measureError

/-! ## What a change reaches -/

/-- A change of settings reaches at most one part, if any: all others stay in step. -/
structure Reaches (part? : Option Part) (s s' : Settings) : Prop where
  /-- The settings stay steady. -/
  steady : s.Steady → s'.Steady
  /-- Another part stays in step. -/
  others : ∀ p, part? ≠ some p → p.InStep s → p.InStep s'

namespace Reaches

variable {part? : Option Part}

theorem refl
    (part? : Option Part)
    (s : Settings) :
    Reaches part? s s where
  steady := id
  others _ _ := id

theorem trans
    (first : Reaches part? s s')
    (second : Reaches part? s' s'') :
    Reaches part? s s'' where
  steady := second.steady ∘ first.steady
  others p other inStep := second.others p other (first.others p other inStep)

/-- A change that reaches no part. -/
theorem of_none
    (nothing : Reaches none s s')
    (part? : Option Part) :
    Reaches part? s s' where
  steady := nothing.steady
  others p _ := nothing.others p nofun

/-- A change of the settings for images that nothing is rebuilt from. -/
theorem of_image
    {image : ImageSettings}
    (drawing : DrawingSettings.ofImageSettings image = .ofImageSettings s.image)
    (quantizing : QuantizingSettings.ofImageSettings image = .ofImageSettings s.image) :
    Reaches none s { s with image } where
  steady steady := by
    constructor
    · exact steady.antialias.trans (congrArg DrawingSettings.antialias drawing).symm
    · exact steady.textAntialias.trans (congrArg DrawingSettings.antialias drawing).symm
    · exact steady.borderColor.trans (congrArg DrawingSettings.borderColor drawing).symm
    · exact steady.font.trans (congrArg DrawingSettings.font drawing).symm
    · exact steady.pointSize.trans (congrArg DrawingSettings.pointSize drawing).symm
    · exact steady.fillPattern
    · exact steady.strokePattern
    · exact steady.colorCount
    · exact steady.measureError.trans (congrArg QuantizingSettings.measureError quantizing).symm
  others p _ inStep := by
    have again : rebuilt image = { rebuilt s.image with image } := by
      rw [rebuilt, drawing, quantizing, rebuilt]
    refine inStep.congr ?_ ?_
    · cases p <;> rfl
    · rw [again]
      cases p <;> rfl

end Reaches

/-- A value of a part reaches this part alone. -/
theorem reaches_put
    (p : Part)
    (value : p.Value)
    (s : Settings) :
    Reaches (some p) s (p.put s value) where
  steady steady := by
    cases p <;>
      exact ⟨steady.antialias, steady.textAntialias, steady.borderColor, steady.font,
        steady.pointSize, steady.fillPattern, steady.strokePattern, steady.colorCount,
        steady.measureError⟩
  others other different :=
    (Part.inStep_put_iff (fun same => different (congrArg some same.symm)) value).mpr

/-- The text of an option reaches the part that is rebuilt from it. -/
theorem reaches_text
    (key : String)
    (value? : Option String)
    (s : Settings) :
    Reaches (Part.ofText? key) s (s.putOption key value?) where
  steady steady := by
    cases value? <;>
      exact ⟨steady.antialias, steady.textAntialias, steady.borderColor, steady.font,
        steady.pointSize, steady.fillPattern, steady.strokePattern, steady.colorCount,
        steady.measureError⟩
  others p other inStep := by
    by_cases drawn : p = .render
    · subst drawn
      cases value? <;> exact inStep
    · have different : p.key ≠ key := by
        rintro rfl
        exact other (by simp [Part.ofText?, p.ofKey?_key, drawn])
      refine inStep.congr ?_ (Part.get_rebuilt_congr ?_ ?_)
      · cases value? <;> cases p <;> rfl
      · exact s.putOption_option? different value?
      · cases value? <;> rfl

theorem reaches_putOption
    (key : String)
    (value? : Option String)
    (s : Settings) :
    Reaches (Part.ofKey? key) s (s.putOption key value?) where
  steady := (s.reaches_text key value?).steady
  others p other := (s.reaches_text key value?).others p fun text =>
    other (Option.filter_eq_some_iff.mp text).1

/-! ## What is kept beside a field of the settings for images -/

theorem reaches_antialias
    (on : Bool)
    (s : Settings) :
    Reaches none s
      { s with
        image.antialias := on
        drawing.antialias := on
        drawing.textAntialias := on } where
  steady steady := { steady with antialias := rfl, textAntialias := rfl }
  others p _ inStep := by cases p <;> exact inStep

theorem reaches_borderColor
    (color : Color)
    (s : Settings) :
    Reaches none s { s with image.borderColor := color, drawing.borderColor := color } where
  steady steady := { steady with borderColor := rfl }
  others p _ inStep := by cases p <;> exact inStep

theorem reaches_font
    (text? : Option String)
    (s : Settings) :
    Reaches none s { s with image.font := text?, drawing.font := text? } where
  steady steady := { steady with font := rfl }
  others p _ inStep := by cases p <;> exact inStep

theorem reaches_pointSize
    (x : Float)
    (s : Settings) :
    Reaches none s { s with image.pointSize := x, drawing.pointSize := x } where
  steady steady := { steady with pointSize := rfl }
  others p _ inStep := by cases p <;> exact inStep

theorem reaches_verbose
    (on : Bool)
    (s : Settings) :
    Reaches none s { s with image.verbose := on, quantizing.measureError := on } where
  steady steady := { steady with measureError := rfl }
  others p _ inStep := by cases p <;> exact inStep

theorem reaches_fillPattern
    (s : Settings) :
    Reaches none s { s with drawing.fillPattern := none } where
  steady steady := { steady with fillPattern := rfl }
  others p _ inStep := by cases p <;> exact inStep

theorem reaches_strokePattern
    (s : Settings) :
    Reaches none s { s with drawing.strokePattern := none } where
  steady steady := { steady with strokePattern := rfl }
  others p _ inStep := by cases p <;> exact inStep

end Settings
end Darkroom
