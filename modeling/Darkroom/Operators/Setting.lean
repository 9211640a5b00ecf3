import Darkroom.Geometry.Amount
import Darkroom.Invocation
import Darkroom.Settings

/-!
# Settings as options

Options that change what holds for later operators and reads.  The sign `-` sets and `+` goes back
to what stood before anything was set.  Most settings also keep the text of their argument, from
which the settings for drawing and for reducing colors can be rebuilt.  A value that does not parse
changes nothing.
-/

namespace Darkroom

/-- What a setting wants done. -/
inductive SettingPlan where
  /-- These settings hold from now on. -/
  | set (settings : Settings)
  /-- These limits on memory and mapped memory hold from now on. -/
  | limits (memory map : Limit)
  /-- The image of a path is installed as a pattern. -/
  | pattern (path : String) (install : Image → Settings → Settings)

/-- A setting as an option. -/
abbrev SettingOption := Settings → Invocation → Except Fault SettingPlan

namespace SettingOption

/-- Settings that hold from now on. -/
def done (s : Settings) : Except Fault SettingPlan :=
  .ok (.set s)

/-- The settings for images changed. -/
def onImage (s : Settings) (f : ImageSettings → ImageSettings) : Settings :=
  { s with image := f s.image }

/-- The settings for drawing changed. -/
def onDrawing (s : Settings) (f : DrawingSettings → DrawingSettings) : Settings :=
  { s with drawing := f s.drawing }

/-- The settings for reducing colors changed. -/
def onQuantizing (s : Settings) (f : QuantizingSettings → QuantizingSettings) : Settings :=
  { s with quantizing := f s.quantizing }

/-- The text of the argument kept, or dropped when the option is taken back. -/
def keepText (s : Settings) (inv : Invocation) : Except Fault Settings := do
  return s.putOption inv.name (← inv.textIfNormal)

/-- A setting that is only its text. -/
def plain : SettingOption :=
  fun s inv => do done (← keepText s inv)

/-- A text that must be a number. -/
def numeric : SettingOption :=
  fun s inv => do
    if inv.normal then let _ ← inv.number
    plain s inv

/-- A text that must be a geometry. -/
def geometric : SettingOption :=
  fun s inv => do
    if inv.normal then let _ ← inv.geometry
    plain s inv

/-- A text that must be a region. -/
def regional : SettingOption :=
  fun s inv => do
    if inv.normal then let _ ← inv.region
    plain s inv

/-- A switch kept as the text `true` or `false`. -/
def flag : SettingOption :=
  fun s inv => done (s.setOption inv.name (if inv.normal then "true" else "false"))

/-- A switch. -/
def switch (put : Bool → Settings → Settings) : SettingOption :=
  fun s inv => done (put inv.normal s)

/-- A keyword, kept as text; no keyword when the option is taken back. -/
def keyword (κ : Type) [Keyword κ] (put : Option κ → Settings → Settings) : SettingOption :=
  fun s inv => do
    if inv.normal then
      let k ← inv.keyword κ
      done (put k (s.setOption inv.name (← inv.first)))
    else done (put none (s.removeOption inv.name))

/-- A keyword that is only its text. -/
def keywordText (κ : Type) [Keyword κ] : SettingOption :=
  keyword κ fun _ s => s

/-- A keyword of which the first of its family stands when the option is taken back. -/
def keywordOr (κ : Type) [Keyword κ] [Inhabited κ] (put : κ → Settings → Settings) :
    SettingOption :=
  keyword κ fun k? => put (k?.getD default)

/-- A color, kept as text under a name; the standard one when the option is taken back. -/
def colorAs (name standard : String) (put : Color → Settings → Settings) : SettingOption :=
  fun s inv => do
    let text ← if inv.normal then inv.first else pure standard
    let color ← Invocation.colorOf text
    done (put color (s.setOption name text))

/-- A color, kept as text; the standard one when the option is taken back. -/
def color (standard : String) (put : Color → Settings → Settings) : SettingOption :=
  fun s inv => colorAs inv.name standard put s inv

/-- A number, kept as text; the standard one when the option is taken back. -/
def number (standard : Float) (put : Float → Settings → Settings) : SettingOption :=
  fun s inv => do
    if inv.normal then
      let x ← inv.number
      done (put x (s.setOption inv.name (← inv.first)))
    else done (put standard (s.removeOption inv.name))

/-- A whole number, not kept as text. -/
def word {α : Type} (word? : List Char → Option α) (put : Option α → Settings → Settings) :
    SettingOption :=
  fun s inv => do
    if inv.normal then done (put (← inv.word word?) s) else done (put none s)

/-- A text, not kept as an option; it must pass a test. -/
def textOnly (check : String → Except Fault Unit) (put : Option String → Settings → Settings) :
    SettingOption :=
  fun s inv => do
    let text? ← inv.textIfNormal
    if let some text := text? then check text
    done (put text? s)

/-- Every text passes. -/
def anyText (_ : String) : Except Fault Unit :=
  .ok ()

/-- The text must be a geometry. -/
def mustBeGeometry (text : String) : Except Fault Unit :=
  (Invocation.geometryOf text).map fun _ => ()

/-- The text must be a region. -/
def mustBeRegion (text : String) : Except Fault Unit :=
  (Invocation.regionOf text).map fun _ => ()

/-- A text, also kept as an option. -/
def textToo (check : String → Except Fault Unit) (put : Option String → Settings → Settings) :
    SettingOption :=
  fun s inv => do
    let text? ← inv.textIfNormal
    if let some text := text? then check text
    done ((put text? s).putOption inv.name text?)

/-- Smooth edges. -/
def antialias : SettingOption :=
  switch fun on s =>
    { s with
      image.antialias := on
      drawing.antialias := on
      drawing.textAntialias := on }

/-- Debugging, with the events to show. -/
def debug : SettingOption :=
  fun s inv =>
    let s := onImage s fun i => { i with debug := inv.normal }
    done (s.putOption "debug" (if inv.normal then inv.first? else none))

/-- Details. -/
def verbose : SettingOption :=
  switch fun on s => { s with image.verbose := on, quantizing.measureError := on }

/-- A color, or the path of an image to use as a pattern. -/
def paint (putColor : Color → DrawingSettings → DrawingSettings)
    (putPattern : Image → DrawingSettings → DrawingSettings) : SettingOption :=
  fun s inv => do
    let text ← if inv.normal then inv.first else pure "none"
    match Color.parse text with
    | .ok color => done (onDrawing (s.setOption inv.name text) (putColor color))
    | .error _ => .ok (.pattern text fun image s => onDrawing s (putPattern image))

/-- The color or pattern of areas. -/
def fill : SettingOption :=
  paint (fun color d => { d with fill := color, fillPattern := none })
    (fun image d => { d with fillPattern := some image })

/-- The color or pattern of lines. -/
def stroke : SettingOption :=
  paint (fun color d => { d with stroke := color, strokePattern := none })
    (fun image d => { d with strokePattern := some image })

/-- The image of a path as the pattern of areas. -/
def tile : SettingOption :=
  fun s inv => do
    if inv.normal then
      let path ← inv.first
      .ok (.pattern path fun image s =>
        (onDrawing s fun d => { d with fillPattern := some image }).setOption "tile" path)
    else done (onDrawing (s.removeOption "tile") fun d => { d with fillPattern := none })

/-- The channels that operators act on. -/
def channel : SettingOption :=
  fun s inv => do
    if inv.normal then
      let text ← inv.first
      let channels ← (ChannelSet.parse text).mapError KeywordError.toFault
      done ((onImage s fun i => { i with channels }).setOption "channel" text)
    else done ((onImage s fun i => { i with channels := default }).removeOption "channel")

/-- A dither method; without one nothing is dithered. -/
def dither : SettingOption :=
  keyword Dither fun method? s =>
    let method := method?.getD .none
    let on := method != .none
    { s with
      image.dither := on
      quantizing.dither := on
      quantizing.ditherMethod := method }

/-- An argument read by a parser, kept as text; a standard value when the option is taken back. -/
def parsed {α : Type} (parse? : Settings → String → Option α) (standard : α)
    (put : α → Settings → Settings) : SettingOption :=
  fun s inv => do
    if inv.normal then
      let text ← inv.first
      let a ← Invocation.orInvalid text (parse? s text)
      done ((put a s).setOption inv.name text)
    else done ((put standard s).removeOption inv.name)

/-- The depth of the color tree. -/
def treeDepth : SettingOption :=
  fun s inv => do
    let treeDepth ← if inv.normal then inv.word Integer.word64? else pure 0
    plain (onQuantizing s fun q => { q with treeDepth }) inv

/-- The page, kept in its canonical form. -/
def page : SettingOption :=
  fun s inv => do
    if inv.normal then
      let page ← (Page.canonical (← inv.first)).mapError GeometryError.toFault
      done ((onImage s fun i => { i with page }).setOption "page" page)
    else done ((onImage s fun i => { i with page := none }).removeOption "page")

/-- An option of any name, written `key=value`. -/
def define : SettingOption :=
  fun s inv => do
    let text ← inv.first
    let (key, value) := match Text.cut? '=' text.toList with
      | some (key, value) => (String.ofList key, String.ofList value)
      | none => (text, "")
    done (if inv.normal then s.setOption key value else s.removeOption key)

/-- A limit on memory, and twice as much on mapped memory; no limits when taken back. -/
def cache : SettingOption :=
  fun _ inv => do
    if inv.normal then
      let text ← inv.first
      let amount ← Invocation.orInvalid text (Amount.parse? text 100.0)
      .ok (.limits (.amount amount) (.amount (2.0 * amount)))
    else .ok (.limits .unlimited .unlimited)

/-- Every setting, by its name without the sign. -/
def all : List (String × SettingOption) :=
  [ ("adjoin", switch fun on s => { s with image.adjoin := on }),
    ("affine", parsed (fun _ text => Affine.parse? text) .identity fun affine s =>
      { s with drawing.affine := affine }),
    ("antialias", antialias),
    ("attenuate", numeric),
    ("authenticate", textOnly anyText fun text? s => { s with image.authenticate := text? }),
    ("background", color "#fff" fun c s => { s with image.background := c }),
    ("bias", numeric),
    ("black-point-compensation", flag),
    ("blue-primary", geometric),
    ("bordercolor", color "#dfdfdf" fun c s =>
      { s with image.borderColor := c, drawing.borderColor := c }),
    ("box", colorAs "undercolor" "none" fun c s => { s with drawing.underColor := c }),
    ("cache", cache),
    ("caption", plain),
    ("channel", channel),
    ("colorspace", keywordOr Colorspace fun k s => { s with image.colorspace := k }),
    ("comment", plain),
    ("compose", keywordOr Compose fun k s => { s with drawing.compose := k }),
    ("compress", keywordOr Compression fun k s => { s with image.compression := k }),
    ("debug", debug),
    ("define", define),
    ("delay", geometric),
    ("density", textToo mustBeGeometry fun text? s => { s with image.density := text? }),
    ("depth", word Integer.word32? fun n? s => { s with image.depth := n? }),
    ("direction", keywordOr Direction fun k s => { s with drawing.direction := k }),
    ("display", plain),
    ("dispose", keywordText Dispose),
    ("dither", dither),
    ("encoding", textToo anyText fun text? s => { s with drawing.encoding := text? }),
    ("endian", keywordOr Endian fun k s => { s with image.endian := k }),
    ("extract", textOnly mustBeRegion fun text? s => { s with image.extract := text? }),
    ("family", textToo anyText fun text? s => { s with drawing.family := text? }),
    ("fill", fill),
    ("filter", keywordText Filter),
    ("font", textOnly anyText fun text? s =>
      { s with image.font := text?, drawing.font := text? }),
    ("format", plain),
    ("fuzz", parsed (fun _ text => Fuzz.parse? text) 0.0 fun x s =>
      { s with image.fuzz := x }),
    ("gravity", keywordOr Gravity fun k s => { s with drawing.gravity := k }),
    ("green-primary", geometric),
    ("intent", keywordText Intent),
    ("interlace", keywordOr Interlace fun k s => { s with image.interlace := k }),
    ("interline-spacing", number 0.0 fun x s => { s with drawing.interlineSpacing := x }),
    ("interpolate", keywordText Interpolate),
    ("interword-spacing", number 0.0 fun x s => { s with drawing.interwordSpacing := x }),
    ("kerning", number 0.0 fun x s => { s with drawing.kerning := x }),
    ("label", plain),
    ("log", plain),
    ("loop", numeric),
    ("mattecolor", color "#bdbdbd" fun c s => { s with image.matteColor := c }),
    ("monitor", switch fun on s => { s with image.monitor := on }),
    ("monochrome", flag),
    ("orient", keywordOr Orientation fun k s => { s with image.orientation := k }),
    ("page", page),
    ("ping", switch fun on s => { s with image.ping := on }),
    ("pointsize", number defaultPointSize fun x s =>
      { s with image.pointSize := x, drawing.pointSize := x }),
    ("precision", numeric),
    ("preview", plain),
    ("quality", word Integer.word32? fun n? s => { s with image.quality := n? }),
    ("quantize", keyword Colorspace fun k? s => { s with quantizing.colorspace := k? }),
    ("quiet", switch fun on s => { s with image.quiet := on }),
    ("red-primary", geometric),
    ("render", switch fun on s => { s with drawing.render := on }),
    ("respect-parenthesis", flag),
    ("sampling-factor", textOnly mustBeGeometry fun text? s =>
      { s with image.samplingFactor := text? }),
    ("scene", word Integer.word64? fun n? s => { s with image.scene := n?.getD 0 }),
    ("seed", numeric),
    ("size", textOnly mustBeRegion fun text? s => { s with image.size := text? }),
    ("stretch", keywordOr Stretch fun k s => { s with drawing.stretch := k }),
    ("stroke", stroke),
    ("strokewidth", number 1.0 fun x s => { s with drawing.strokeWidth := x }),
    ("style", keywordOr Style fun k s => { s with drawing.style := k }),
    ("synchronize", switch fun on s => { s with image.synchronize := on }),
    ("taint", flag),
    ("texture", textOnly anyText fun text? s => { s with image.texture := text? }),
    ("tile", tile),
    ("tile-offset", regional),
    ("transparent-color", color "none" fun c s => { s with image.transparentColor := c }),
    ("treedepth", treeDepth),
    ("type", keywordOr ImageType fun k s => { s with image.imageType := k }),
    ("undercolor", color "none" fun c s => { s with drawing.underColor := c }),
    ("units", keywordOr Units fun k s => { s with image.units := k }),
    ("verbose", verbose),
    ("view", textOnly anyText fun text? s => { s with image.view := text? }),
    ("virtual-pixel", keywordOr VirtualPixel fun k s => { s with image.virtualPixel := k }),
    ("weight", parsed (fun s text => FontWeight.parse? text s.drawing.weight) FontWeight.normal
      fun n s => { s with drawing.weight := n }),
    ("white-point", geometric) ]

/-- The setting of a name. -/
def named? (name : String) : Option SettingOption :=
  all.lookup name

end SettingOption
end Darkroom
