import Darkroom.Fault
import Darkroom.Number.Binary
import Darkroom.Number.Decimal

/-!
# Geometry texts

Operators take their numbers as one text such as `10x5+2-3` or `50%`.  The general form has four
optional numbers; the regional form has an unsigned size and a whole offset.  Modifier characters
may stand anywhere in the text and are collected first, together with blanks, which mean nothing.
-/

namespace Darkroom

/-- A text that is no geometry, or no list of scenes. -/
inductive GeometryError where
  /-- No geometry. -/
  | invalid (text : String)
  /-- No list of scenes, or one that misses the images. -/
  | scenes (text : String)
deriving DecidableEq, Repr

namespace GeometryError

/-- The wording of the error. -/
def message : GeometryError → String
  | invalid text => "invalid geometry `" ++ text ++ "`"
  | scenes text => "invalid scene list `" ++ text ++ "`"

/-- The fault it is reported as. -/
def toFault : GeometryError → Fault
  | invalid text => .invalidGeometry text
  | scenes text => .invalidArgument text

end GeometryError

/-- The modifiers of a geometry. -/
structure Modifiers where
  /-- `%`: the numbers are percentages. -/
  percent : Bool := false
  /-- `!`: the aspect ratio may change. -/
  aspect : Bool := false
  /-- `>`: only shrink. -/
  greater : Bool := false
  /-- `<`: only enlarge. -/
  less : Bool := false
  /-- `^`: the size is the least that covers the box. -/
  minimum : Bool := false
  /-- `@`: the first number is an area in pixels. -/
  area : Bool := false
deriving DecidableEq, Repr

namespace Modifiers

/-- No modifier. -/
def none : Modifiers := {}

/-- The modifiers with the one of a character, if it is a modifier character. -/
def add? (m : Modifiers) : Char → Option Modifiers
  | '%' => some { m with percent := true }
  | '!' => some { m with aspect := true }
  | '>' => some { m with greater := true }
  | '<' => some { m with less := true }
  | '^' => some { m with minimum := true }
  | '@' => some { m with area := true }
  | _ => Option.none

/-- The text without modifiers and blanks, and the modifiers. -/
def split (text : List Char) : List Char × Modifiers :=
  text.foldr
    (fun c (body, m) =>
      match m.add? c with
      | some m => (body, m)
      | Option.none => if Text.isBlank c then (body, m) else (c :: body, m))
    ([], none)

end Modifiers

/-- The longest run of characters that belongs to a number: digits and points, then an exponent if
its digits follow. -/
def numeral (s : List Char) : List Char × List Char :=
  let isNumeric (c : Char) : Bool := c.isDigit || c == '.'
  let body := s.takeWhile isNumeric
  let rest := s.dropWhile isNumeric
  let plain := (body, rest)
  if body.isEmpty then plain
  else match rest with
    | mark :: tail =>
        if mark = 'e' ∨ mark = 'E' then
          let (sign, digits) := match tail with
            | '+' :: more => (['+'], more)
            | '-' :: more => (['-'], more)
            | _ => ([], tail)
          let exponent := digits.takeWhile Char.isDigit
          if exponent.isEmpty then plain
          else (body ++ mark :: sign ++ exponent, digits.dropWhile Char.isDigit)
        else plain
    | [] => plain

/-- The number a text starts with and the rest of the text. -/
def takeNumber (signed : Bool) (s : List Char) : Option (Float × List Char) :=
  let (sign, body) := match s with
    | c :: rest => if signed && (c == '+' || c == '-') then ([c], rest) else ([], s)
    | [] => ([], s)
  let (digits, rest) := numeral body
  if digits.isEmpty then none
  else (Decimal.number? (sign ++ digits)).map fun x => (x, rest)

/-- Whether a text starts with a sign. -/
def startsSigned : List Char → Bool
  | c :: _ => c == '+' || c == '-'
  | [] => false

/-- The general form: up to four numbers and modifiers. -/
structure Geometry where
  /-- The first number. -/
  rho : Option Float := none
  /-- The second number, behind `x` or another separator. -/
  sigma : Option Float := none
  /-- The third number. -/
  xi : Option Float := none
  /-- The fourth number. -/
  psi : Option Float := none
  /-- The modifiers. -/
  modifiers : Modifiers := {}
deriving Repr

namespace Geometry

/-- The first number, zero when absent. -/
def rhoValue (g : Geometry) : Float := g.rho.getD 0.0

/-- The second number, zero when absent. -/
def sigmaValue (g : Geometry) : Float := g.sigma.getD 0.0

/-- The third number, zero when absent. -/
def xiValue (g : Geometry) : Float := g.xi.getD 0.0

/-- The fourth number, zero when absent. -/
def psiValue (g : Geometry) : Float := g.psi.getD 0.0

/-- An optional trailing number: signed, or behind a comma.  A sign or comma without its number is
an error. -/
def takeTrailing (s : List Char) : Option (Option Float × List Char) :=
  if startsSigned s then (takeNumber true s).map fun (x, rest) => (some x, rest)
  else match s with
    | ',' :: tail => (takeNumber true tail).map fun (x, rest) => (some x, rest)
    | _ => some (none, s)

/-- An optional number at the front. -/
def takeOptional (signed : Bool) (s : List Char) : Option Float × List Char :=
  match takeNumber signed s with
  | some (x, rest) => (some x, rest)
  | none => (none, s)

/-- Whether a character separates the first two numbers. -/
def isSeparator (c : Char) : Bool :=
  c == 'x' || c == 'X' || c == ',' || c == '/' || c == ':'

/-- The geometry a text writes. -/
def ofChars? (text : List Char) : Option Geometry := do
  let (body, modifiers) := Modifiers.split text
  let (rho, rest) := takeOptional true body
  let (sigma, rest) := match rest with
    | c :: tail => if isSeparator c then takeOptional true tail else (none, rest)
    | [] => (none, rest)
  let (xi, rest) ← takeTrailing rest
  let (psi, rest) ← takeTrailing rest
  let numbers := [rho, sigma, xi, psi]
  if !rest.isEmpty || (numbers.all Option.isNone && modifiers = .none) then none
  else some { rho, sigma, xi, psi, modifiers }

/-- The geometry a text writes, or the error that names the text. -/
def parse (text : String) : Except GeometryError Geometry :=
  match ofChars? text.toList with
  | some g => .ok g
  | none => .error (.invalid text)

/-- The geometry a text writes, if any. -/
def parse? (text : String) : Option Geometry :=
  ofChars? text.toList

end Geometry

/-- The regional form: a size, an offset and modifiers. -/
structure Region where
  /-- The width. -/
  width : Option Float := none
  /-- The height. -/
  height : Option Float := none
  /-- The horizontal offset. -/
  x? : Option Int64 := none
  /-- The vertical offset. -/
  y? : Option Int64 := none
  /-- The modifiers. -/
  modifiers : Modifiers := {}
deriving Repr

namespace Region

/-- The horizontal offset, zero when absent. -/
def x (r : Region) : Int64 := r.x?.getD 0

/-- The vertical offset, zero when absent. -/
def y (r : Region) : Int64 := r.y?.getD 0

/-- Whether an offset was written. -/
def hasOffset (r : Region) : Bool := r.x?.isSome

/-- An optional offset: a signed number, cut to a whole one.  A sign without its number is an
error. -/
def takeOffset (s : List Char) : Option (Option Int64 × List Char) :=
  if startsSigned s then (takeNumber true s).map fun (v, rest) => (some (truncInt64 v), rest)
  else some (none, s)

/-- The region a text writes. -/
def ofChars? (text : List Char) : Option Region := do
  let (body, modifiers) := Modifiers.split text
  let (width, rest) := Geometry.takeOptional false body
  let (height, rest) := match rest with
    | c :: tail => if c = 'x' ∨ c = 'X' then Geometry.takeOptional false tail else (none, rest)
    | [] => (none, rest)
  let (x?, rest) ← takeOffset rest
  let (y?, rest) ← takeOffset rest
  if !rest.isEmpty ||
      (width.isNone && height.isNone && x?.isNone && modifiers = .none) then none
  else some { width, height, x?, y?, modifiers }

/-- The region a text writes, or the error that names the text. -/
def parse (text : String) : Except GeometryError Region :=
  match ofChars? text.toList with
  | some r => .ok r
  | none => .error (.invalid text)

/-- The region a text writes, if any. -/
def parse? (text : String) : Option Region :=
  ofChars? text.toList

end Region
end Darkroom
