import Darkroom.Engine.Transform
import Darkroom.Geometry.Amount
import Darkroom.Invocation
import Darkroom.Settings
import Darkroom.Template

/-!
# Operators on one image

An operator on one image decides from what it can see what is to be done: a change of attributes, a
text to print, or work for the engine.  Deciding changes nothing; an operator that cannot decide
gives the fault to report instead.
-/

namespace Darkroom

/-- What an operator can see besides its image and arguments. -/
structure View where
  /-- The settings. -/
  settings : Settings
  /-- The number of places in the list. -/
  count : Nat
  /-- The contents of a text file, or why there are none. -/
  readText : String → Except String String
  /-- The bytes of a file, or why there are none. -/
  readBytes : String → Except String (List UInt8)

namespace View

/-- The text of a template argument for an image. -/
def expand (view : View) (image? : Option Image) (argument : String) : Except Fault String :=
  Template.interpret view.readText ⟨view.settings.image, image?, view.count⟩ argument

/-- The bytes of a file that must be there. -/
def bytesOf (view : View) (path : String) : Except Fault (List UInt8) :=
  (view.readBytes path).mapError fun reason => .unreadable path reason

/-- The text of a file that must be there. -/
def textOf (view : View) (path : String) : Except Fault String :=
  (view.readText path).mapError fun reason => .unreadable path reason

end View

/-- What an operator wants done with its image. -/
inductive ImagePlan where
  /-- The image stays in its place, perhaps with other attributes. -/
  | keep (image : Image)
  /-- An option is set or removed for later, and the image stays with other attributes. -/
  | setOption (key : String) (value? : Option String) (image : Image)
  /-- A text is printed. -/
  | print (text : String)
  /-- The engine works on the image; every image that comes out is finished. -/
  | apply (op : Transform) (finish : Image → Image)

/-- An operator on one image. -/
abbrev ImageOperator := View → Image → Invocation → Except Fault ImagePlan

namespace ImageOperator

/-- Work for the engine, and nothing after it. -/
def work (op : Transform) : Except Fault ImagePlan :=
  .ok (.apply op id)

/-- The image as it is. -/
def unchanged (image : Image) : Except Fault ImagePlan :=
  .ok (.keep image)

/-- An operator without arguments. -/
def always (op : Transform) : ImageOperator :=
  fun _ _ _ => work op

/-- An operator whose arguments are a geometry. -/
def byGeometry (op : Geometry → Transform) : ImageOperator :=
  fun _ _ inv => do work (op (← inv.geometry))

/-- The greatest value of a channel. -/
def greatestValue : Float := 255.0

/-- A number, or a percentage of a base when the geometry is marked with `%`. -/
def scaled (g : Geometry) (value base : Float) : Float :=
  if g.modifiers.percent then value * base / 100.0 else value

/-- A channel value: a number or a percentage of the greatest value. -/
def channelValue (text : String) : Except Fault Float :=
  Invocation.orInvalid text (Amount.parse? text greatestValue)

/-- An operator whose argument is a channel value. -/
def byChannelValue (op : Float → Transform) : ImageOperator :=
  fun _ _ inv => do work (op (← channelValue (← inv.first)))

/-- Numbers separated by commas or blanks. -/
def numbers (text : String) : Except Fault (List Float) :=
  Invocation.orInvalid text
    ((Text.fields Text.isListSeparator text.toList).mapM Decimal.number?)

/-- The second number of a geometry, or another. -/
def sigmaOr (g : Geometry) (otherwise : Float) : Float :=
  g.sigma.getD otherwise

/-- The second number of a geometry, or the first. -/
def sigmaOrRho (g : Geometry) : Float :=
  g.sigma.getD g.rhoValue

/-- A length in pixels: cut to a whole one, not below a bound. -/
def lengthAtLeast (low value : Float) : UInt32 :=
  truncUInt32 (greatestFloat value low)

/-- The size in the first two numbers of a geometry; one number stands for both. -/
def sizeAtLeast (low : Float) (g : Geometry) : Size :=
  ⟨lengthAtLeast low g.rhoValue, lengthAtLeast low (sigmaOrRho g)⟩

/-- The margin in the first two numbers of a geometry, perhaps in percent of the image. -/
def margin (g : Geometry) (size : Size) : Size :=
  ⟨lengthAtLeast 0.0 (scaled g g.rhoValue size.width.toFloat),
    lengthAtLeast 0.0 (scaled g (sigmaOrRho g) size.height.toFloat)⟩

end ImageOperator
end Darkroom
