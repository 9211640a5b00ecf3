import Darkroom.Color.Parser
import Darkroom.Geometry.Basic
import Darkroom.Keyword.Basic

/-!
# Options as written

An option is a name with a sign in front and up to two arguments.  The sign `-` applies it and `+`
takes it back; brackets stand without a sign.
-/

namespace Darkroom

/-- One option with its arguments. -/
structure Invocation where
  /-- The option as written, which reports name. -/
  option : String
  /-- The name without its sign. -/
  name : String
  /-- Whether the option is applied rather than taken back. -/
  normal : Bool
  /-- The first argument. -/
  first? : Option String
  /-- The second argument. -/
  second? : Option String
deriving DecidableEq, Repr

namespace Invocation

/-- The name of an option without its sign, and whether the option is applied. -/
def splitSign (option : String) : String × Bool :=
  match option.toList with
  | ['-', '-'] => ("--", true)
  | '-' :: name => (String.ofList name, true)
  | '+' :: name => (String.ofList name, false)
  | _ => (option, true)

/-- An option as written with its arguments. -/
def of (option : String) (first? second? : Option String) : Invocation :=
  let (name, normal) := splitSign option
  { option, name, normal, first?, second? }

/-- The first argument, which must be there. -/
def first (inv : Invocation) : Except Fault String :=
  match inv.first? with
  | some text => .ok text
  | none => .error .missingArgument

/-- The second argument, which must be there. -/
def second (inv : Invocation) : Except Fault String :=
  match inv.second? with
  | some text => .ok text
  | none => .error .missingArgument

/-- The geometry that a text writes. -/
def geometryOf (text : String) : Except Fault Geometry :=
  (Geometry.parse text).mapError GeometryError.toFault

/-- The region that a text writes. -/
def regionOf (text : String) : Except Fault Region :=
  (Region.parse text).mapError GeometryError.toFault

/-- The color that a text names. -/
def colorOf (text : String) : Except Fault Color :=
  (Color.parse text).mapError ColorError.toFault

/-- The keyword that a text names. -/
def keywordOf (κ : Type) [Keyword κ] (text : String) : Except Fault κ :=
  (Keyword.parse text).mapError KeywordError.toFault

/-- A value, or the fault of an argument that does not parse. -/
def orInvalid {α : Type} (text : String) : Option α → Except Fault α
  | some a => .ok a
  | none => .error (.invalidArgument text)

/-- The number that a text writes between blanks. -/
def numberOf (text : String) : Except Fault Float :=
  orInvalid text (Decimal.number? (Text.trim text.toList))

/-- The whole number that a text writes between blanks, read by `word?`. -/
def wordOf {α : Type} (word? : List Char → Option α) (text : String) : Except Fault α :=
  orInvalid text (word? (Text.trim text.toList))

/-- The first argument as a geometry. -/
def geometry (inv : Invocation) : Except Fault Geometry := do
  geometryOf (← inv.first)

/-- The first argument as a region. -/
def region (inv : Invocation) : Except Fault Region := do
  regionOf (← inv.first)

/-- The first argument as a keyword. -/
def keyword (κ : Type) [Keyword κ] (inv : Invocation) : Except Fault κ := do
  keywordOf κ (← inv.first)

/-- The first argument as a color. -/
def color (inv : Invocation) : Except Fault Color := do
  colorOf (← inv.first)

/-- The first argument as a number. -/
def number (inv : Invocation) : Except Fault Float := do
  numberOf (← inv.first)

/-- The first argument as a whole number, read by `word?`. -/
def word {α : Type} (word? : List Char → Option α) (inv : Invocation) : Except Fault α := do
  wordOf word? (← inv.first)

/-- The first argument of an applied option; nothing when it is taken back. -/
def textIfNormal (inv : Invocation) : Except Fault (Option String) :=
  if inv.normal then inv.first.map some else .ok none

end Invocation
end Darkroom
