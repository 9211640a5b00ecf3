import Darkroom.Geometry.Basic

/-!
# Lists of scenes

Images of a list are chosen by texts such as `0-2,5,-1`.  A negative index counts from the end and
a range may run backwards.
-/

namespace Darkroom
namespace Scenes

/-- A text of digits, signs, commas and spaces, at least one. -/
def isList (text : List Char) : Bool :=
  !text.isEmpty && text.all fun c => c.isDigit || c == '-' || c == ',' || c == ' '

/-- The place of an index in a list of `length` images; a negative one counts from the end. -/
def absolute (length : Nat) (index : Int64) : Int :=
  if index < 0 then (length : Int) + index.toInt else index.toInt

/-- The ends of one item: an index alone, or two with a dash between them. -/
def ends? (length : Nat) (item : List Char) : Option (Int × Int) :=
  let place? (s : List Char) : Option Int := (Integer.signed64? s).map (absolute length)
  match item with
  | [] => none
  | first :: rest =>
      match Text.cut? '-' rest with
      | some (head, tail) => do
          let start ← place? (first :: head)
          let stop ← place? tail
          some (start, stop)
      | none => (place? item).map fun n => (n, n)

/-- The indexes of a range, cut to a list of `length` images. -/
def span (length : Nat) (start stop : Int) : List Nat :=
  let low := max 0 (min start stop)
  let high := min ((length : Int) - 1) (max start stop)
  let forward := List.range' low.toNat (high + 1 - low).toNat
  if start ≤ stop then forward else forward.reverse

/-- The items between the commas, blanks around them removed. -/
def items (text : List Char) : List (List Char) :=
  ((text.splitOn ',').map Text.trim).filter fun item => !item.isEmpty

/-- The indexes of one item.  When strict, an index outside the list is refused. -/
def item? (strict : Bool) (length : Nat) (item : List Char) : Option (List Nat) :=
  (ends? length item).bind fun (start, stop) =>
    let inside (n : Int) : Bool := 0 ≤ n && n < length
    if strict && !(inside start && inside stop) then none else some (span length start stop)

/-- The indexes of a list of scenes in order. -/
def resolve (strict : Bool) (text : String) (length : Nat) : Except GeometryError (List Nat) :=
  let chosen : Option (List Nat) :=
    if isList text.toList then
      ((items text.toList).mapM (item? strict length)).map List.flatten
    else none
  match chosen with
  | some indexes => .ok indexes
  | none => .error (.scenes text)

/-- Every index must lie in the list. -/
def parse : (text : String) → (length : Nat) → Except GeometryError (List Nat) :=
  resolve true

/-- Indexes outside the list are dropped and ranges are cut to it. -/
def select : (text : String) → (length : Nat) → Except GeometryError (List Nat) :=
  resolve false

end Scenes
end Darkroom
