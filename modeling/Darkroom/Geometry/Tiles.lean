import Darkroom.Geometry.Rect

/-!
# The tiles of a crop

A geometry with an offset cuts one rectangle.  Without one, tiles of the given size cover the image
row by row; with `@` the image is split into a given number of columns and rows.
-/

namespace Darkroom
namespace Tiles

/-- The starts and lengths of `parts` nearly equal parts of a side; empty parts are left out. -/
def split (parts : Nat) (side : UInt32) : List (Int64 × UInt32) :=
  (List.range parts).filterMap fun i =>
    let start := i * side.toNat / parts
    let stop := (i + 1) * side.toNat / parts
    if start < stop then some (Int64.ofNat start, UInt32.ofNat (stop - start)) else none

/-- The rectangles of a grid, row by row. -/
def grid (columns rows : List (Int64 × UInt32)) : List Rect :=
  rows.flatMap fun (y, height) => columns.map fun (x, width) => ⟨x, y, width, height⟩

/-- The starts of tiles that cover a side. -/
def starts (tile side : UInt32) : List Int64 :=
  (List.range ((side.toNat + (tile.toNat - 1)) / tile.toNat)).map fun i =>
    Int64.ofNat (i * tile.toNat)

/-- The length of a tile: a part of the side, all of it when nothing or zero is asked for. -/
def length (percent : Bool) (asked : Option Float) (side : UInt32) : UInt32 :=
  let n := match asked with
    | none => side
    | some v =>
        if percent then nearestUInt32 (side.toFloat * v / 100.0) else truncUInt32 v
  if n = 0 then side else n

end Tiles

open Tiles in
/-- The regions that a crop geometry cuts from a source; none when it misses the image. -/
def cropRegions (source : Size) (r : Region) : List Rect :=
  let tallness := r.height.orElse fun _ => r.width
  if r.modifiers.area then
    let parts (asked : Option Float) : Nat :=
      (truncUInt32 (greatestFloat (asked.getD 1.0) 1.0)).toNat
    grid (split (parts r.width) source.width) (split (parts tallness) source.height)
  else
    let width := length r.modifiers.percent r.width source.width
    let height := length r.modifiers.percent tallness source.height
    if r.hasOffset then (Rect.clipTo ⟨r.x, r.y, width, height⟩ source).toList
    else
      (starts height source.height).flatMap fun y =>
        (starts width source.width).filterMap fun x => Rect.clipTo ⟨x, y, width, height⟩ source

end Darkroom
