import Darkroom.Color.Basic
import Darkroom.Geometry.Rect
import Darkroom.Keyword.Basic
import Darkroom.Table

/-!
# Descriptions

Images, settings and requests can be described: their attributes by name, each as a plain value that
is easy to show and to compare.
-/

namespace Darkroom

/-- A plain value. -/
inductive Detail where
  /-- Nothing. -/
  | absent
  /-- A truth value. -/
  | truth (value : Bool)
  /-- A whole number. -/
  | whole (value : Int)
  /-- A number with a fraction. -/
  | number (value : Float)
  /-- A number of which nine decimals matter. -/
  | rounded (value : Float)
  /-- A text. -/
  | text (value : String)
  /-- Values in order. -/
  | list (items : List Detail)
  /-- Values by name. -/
  | record (fields : List (String × Detail))
deriving Inhabited

/-- Attributes by name. -/
abbrev Details := List (String × Detail)

namespace Detail

/-- A natural number. -/
def count (n : Nat) : Detail := whole n

/-- An unsigned word of 32 bits. -/
def word (n : UInt32) : Detail := whole n.toNat

/-- An unsigned word of 64 bits. -/
def longWord (n : UInt64) : Detail := whole n.toNat

/-- A signed word of 64 bits. -/
def signed (n : Int64) : Detail := whole n.toInt

/-- The spelling of a keyword. -/
def keyword {κ : Type} [Keyword κ] (k : κ) : Detail := text (Keyword.name k)

/-- A color in hexadecimal. -/
def color (c : Color) : Detail := text c.text

/-- A value that may be absent. -/
def option {α : Type} (f : α → Detail) : Option α → Detail
  | some a => f a
  | none => absent

/-- Numbers in order. -/
def numbers (xs : List Float) : Detail := list (xs.map number)

/-- Texts by key. -/
def table (t : Table String) : Detail :=
  record (t.entries.map fun (key, value) => (key, text value))

/-- A width and a height. -/
def size (s : Size) : Detail := list [word s.width, word s.height]

/-- A corner, a width and a height. -/
def rect (r : Rect) : Detail :=
  list [signed r.x, signed r.y, word r.width, word r.height]

end Detail
end Darkroom
