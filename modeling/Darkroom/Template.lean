import Darkroom.Image
import Darkroom.Number.Shortest
import Darkroom.Settings.Basic

/-!
# Percent templates

Texts with escapes that stand for what is known about an image.  A template is cut into pieces
first; the text of a piece is never scanned again.  A backslash writes a line feed, a carriage
return or itself.  A leading `@` takes the template from a file.
-/

namespace Darkroom
namespace Template

/-- A piece of a template. -/
inductive Piece where
  /-- A character that stands for itself. -/
  | literal (c : Char)
  /-- An escape of one letter. -/
  | escape (key : Char)
  /-- An escape of a name. -/
  | named (name : List Char)
deriving DecidableEq, Repr

/-- The characters that a backslash before a character writes. -/
def afterBackslash (c : Char) : List Char :=
  if c = 'n' then ['\n']
  else if c = 'r' then ['\r']
  else if c = '\\' then ['\\']
  else ['\\', c]

/-- The pieces of a template. -/
def pieces : List Char → List Piece
  | [] => []
  | ['\\'] => [.literal '\\']
  | ['%'] => [.literal '%']
  | '\\' :: c :: rest => (afterBackslash c).map .literal ++ pieces rest
  | '%' :: '[' :: rest =>
      .named (rest.takeWhile (· != ']')) :: pieces ((rest.dropWhile (· != ']')).drop 1)
  | '%' :: c :: rest => .escape c :: pieces rest
  | c :: rest => .literal c :: pieces rest
termination_by text => text.length
decreasing_by
  all_goals simp only [List.length_cons, List.length_drop]
  all_goals try omega
  have shorter := (List.dropWhile_sublist (l := rest) (· != ']')).length_le
  omega

/-- What the escapes of a template can see. -/
structure Context where
  /-- The settings. -/
  settings : ImageSettings
  /-- The image, if there is one. -/
  image? : Option Image
  /-- The number of images in the list. -/
  count : Nat

/-- The value of a name: a property, an artifact or an option, in this order. -/
def namedValue (context : Context) (name : String) : String :=
  let ofImage? := context.image?.bind fun image =>
    (image.properties.get? name).orElse fun _ => image.artifacts.get? name
  match ofImage? with
  | some value => value
  | none =>
      let key := ((Text.after? "option:".toList name.toList).map String.ofList).getD name
      (context.settings.option? key).getD ""

/-- The letters of the escapes about an image. -/
def imageKeys : List Char :=
  "whWHXYxyfdetmszcl#".toList

/-- The value of an escape about an image. -/
def imageValue? (image : Image) (key : Char) : Option String :=
  let density := image.density.getD (72.0, 72.0)
  let part (cut : List Char → Option (List Char)) : String :=
    String.ofList ((cut image.filename.toList).getD [])
  match key with
  | 'w' => some (toString image.size.width)
  | 'h' => some (toString image.size.height)
  | 'W' => some (toString image.page.width)
  | 'H' => some (toString image.page.height)
  | 'X' => some (Integer.withSign image.page.x.toInt)
  | 'Y' => some (Integer.withSign image.page.y.toInt)
  | 'x' => some (decimal density.1)
  | 'y' => some (decimal density.2)
  | 'f' => some (part Path.fileName?)
  | 'd' => some (part Path.parent?)
  | 'e' => some (part Path.extension?)
  | 't' => some (part Path.stem?)
  | 'm' => some image.format
  | 's' => some (toString image.scene)
  | 'z' => some (toString image.depth)
  | 'c' => some ((image.properties.get? "comment").getD "")
  | 'l' => some ((image.properties.get? "label").getD "")
  | '#' => some image.signature
  | _ => none

/-- The value of an escape; escapes about an image are empty without one. -/
def escapeValue? (context : Context) (key : Char) : Option String :=
  match key with
  | '%' => some "%"
  | 'n' => some (toString context.count)
  | 'q' => some "8"
  | _ =>
      match context.image? with
      | some image => imageValue? image key
      | none => if imageKeys.contains key then some "" else none

/-- The text of a piece; an unknown escape stands for itself. -/
def Piece.text (context : Context) : Piece → String
  | literal c => String.singleton c
  | escape key => (escapeValue? context key).getD (String.ofList ['%', key])
  | named name => namedValue context (String.ofList name)

/-- The text of a template. -/
def expand (context : Context) (template : String) : String :=
  String.join ((pieces template.toList).map (Piece.text context))

/-- The template an argument gives: itself, or the contents of the file it names. -/
def source (readText : String → Except String String) (argument : String) : Except Fault String :=
  match argument.toList with
  | '@' :: path =>
      let path := String.ofList path
      (readText path).mapError fun reason => .unreadable path reason
  | _ => .ok argument

/-- The text of the template an argument gives. -/
def interpret (readText : String → Except String String) (context : Context) (argument : String) :
    Except Fault String :=
  (source readText argument).map (expand context)

end Template
end Darkroom
