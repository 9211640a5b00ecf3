import Darkroom.Geometry.Basic

/-!
# Pages

The page of an image is the size of its virtual canvas and the place of the image on it.  Paper
names stand for sizes in points.
-/

namespace Darkroom

/-- A virtual canvas and the place of an image on it. -/
structure Page where
  /-- The canvas width. -/
  width : UInt32 := 0
  /-- The canvas height. -/
  height : UInt32 := 0
  /-- The horizontal place. -/
  x : Int64 := 0
  /-- The vertical place. -/
  y : Int64 := 0
deriving DecidableEq, Repr, Inhabited

namespace Page

/-- The canvas of the image alone. -/
def unset : Page := {}

/-- Whether the page is the image alone. -/
def isUnset (p : Page) : Bool := p = unset

/-- The size, then the signed place. -/
def text (p : Page) : String :=
  toString p.width ++ "x" ++ toString p.height ++ Integer.withSign p.x.toInt ++
    Integer.withSign p.y.toInt

/-- Paper names with their sizes in points. -/
def papers : List (String × String) :=
  [ ("a3", "842x1191"), ("a4", "595x842"), ("a5", "420x595"), ("b5", "501x709"),
    ("executive", "540x720"), ("ledger", "1224x792"), ("legal", "612x1008"),
    ("letter", "612x792"), ("tabloid", "792x1224") ]

/-- The text with a leading paper name, in any case, replaced by its size. -/
def expandPaper (text : String) : String :=
  let expansion? := papers.findSome? fun (name, size) =>
    (Text.after? name.toList (Text.lower text.toList)).map fun _ =>
      size ++ String.ofList (text.toList.drop name.length)
  expansion?.getD text

/-- The page text in its one written form: a size, and an offset when there is one.  A missing
height is the width. -/
def canonical (text : String) : Except GeometryError String := do
  let r ← Region.parse (expandPaper text)
  let size := toString (truncUInt64 (r.width.getD 0.0)) ++ "x" ++
    toString (truncUInt64 ((r.height.orElse fun _ => r.width).getD 0.0))
  if r.hasOffset then
    return size ++ Integer.withSign r.x.toInt ++ Integer.withSign r.y.toInt
  else return size

/-- The page a regional geometry describes. -/
def ofRegion (r : Region) : Page where
  width := truncUInt32 (r.width.getD 0.0)
  height := truncUInt32 ((r.height.orElse fun _ => r.width).getD 0.0)
  x := r.x
  y := r.y

/-- The page a canonical text describes. -/
def parse? (text : String) : Option Page :=
  (Region.parse? text).map ofRegion

end Page
end Darkroom
