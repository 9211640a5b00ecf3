import Darkroom.Engine.Transform
import Darkroom.Pixels.Tone

/-!
# Painting

Colors replaced by likeness, areas filled from a seed, and gradients between colored places.
-/

namespace Darkroom

namespace Color

/-- Another color for the colors near a target, or for all but those. -/
def replaceNear (target fill : Color) (fuzz : Float) (invert : Bool) (c : Color) : Color :=
  if c.isNear target fuzz != invert then fill else c

/-- No coverage for the colors near a target, or for all but those. -/
def clearNear (target : Color) (fuzz : Float) (invert : Bool) (c : Color) : Color :=
  if c.isNear target fuzz != invert then { c with alpha := 0 } else c

end Color

namespace Flood

/-- The places next to a place inside a raster. -/
def neighbors (width height : Nat) : Nat × Nat → List (Nat × Nat)
  | (x, y) =>
      (if y + 1 < height then [(x, y + 1)] else []) ++
        (if x + 1 < width then [(x + 1, y)] else []) ++
        (if 0 < y then [(x, y - 1)] else []) ++ if 0 < x then [(x - 1, y)] else []

/-- The number of a place in row order. -/
def index (width : Nat) (place : Nat × Nat) : Nat :=
  place.2 * width + place.1

/-- A place that is visited for the first time leaves fewer that were not. -/
theorem count_visit_lt {visited : Array Bool} {i : Nat} (fresh : ¬ visited.getD i true = true) :
    (visited.setIfInBounds i true).count false < visited.count false := by
  unfold Array.getD at fresh
  split at fresh
  · next bound =>
    have missing : visited[i] = false := eq_false_of_ne_true fresh
    have member : visited[i] ∈ visited := Array.getElem_mem bound
    rw [missing] at member
    have positive := Array.count_pos_iff.mpr member
    rw [Array.setIfInBounds, dif_pos bound, Array.count_set bound, missing,
      if_pos (beq_self_eq_true false), if_neg (by decide)]
    omega
  · exact absurd rfl fresh

/-- A canvas filled from pending places on.  The place on top is passed over when it was visited,
and visited otherwise; if its color on the canvas is open, it gets the fill color and the places
next to it become pending. -/
def search (isOpen : Color → Bool) (fill : Color) (visited : Array Bool) (canvas : Raster)
    (pending : List (Nat × Nat)) : Raster :=
  match pending with
  | [] => canvas
  | place :: rest =>
      let i := index canvas.width place
      if visited.getD i true then search isOpen fill visited canvas rest
      else if isOpen (canvas.get place.1 place.2) then
        let next := neighbors canvas.width canvas.height place ++ rest
        search isOpen fill (visited.setIfInBounds i true) (canvas.put place.1 place.2 fill) next
      else search isOpen fill (visited.setIfInBounds i true) canvas rest
termination_by (visited.count false, pending.length)
decreasing_by
  · exact Prod.Lex.right _ (Nat.lt_succ_self _)
  · exact Prod.Lex.left _ _ (count_visit_lt ‹_›)
  · exact Prod.Lex.left _ _ (count_visit_lt ‹_›)

end Flood

namespace Raster

/-- The places connected with a seed filled: those near the target color, or all but those. -/
def floodfill (r : Raster) (seedX seedY : Nat) (target fill : Color) (fuzz : Float)
    (invert : Bool) : Raster :=
  Flood.search (fun c => c.isNear target fuzz != invert) fill (Array.replicate r.size.area false) r
    [(seedX, seedY)]

/-- The first of the least by a key. -/
def leastBy? {α : Type} (less : α → α → Bool) : List α → Option α
  | [] => none
  | a :: rest => some (rest.foldl (fun best b => if less b best then b else best) a)

/-- The square of the distance of a colored place. -/
def squaredReach (p : SparsePoint) (x y : Float) : Float :=
  (p.x - x) * (p.x - x) + (p.y - y) * (p.y - y)

/-- The values of the nearest colored place; one that is nowhere comes last. -/
def nearestValues (points : List SparsePoint) (x y : Float) : List Float :=
  let nearer (p q : SparsePoint) : Bool :=
    let a := squaredReach p x y
    let b := squaredReach q x y
    a < b || (b.isNaN && !a.isNaN)
  match leastBy? nearer points with
  | some p => p.values
  | none => [0.0, 0.0, 0.0, 0.0]

/-- The mean of the values of all colored places, weighted by inverse squared distance; at a
colored place its own values. -/
def weighedValues (points : List SparsePoint) (x y : Float) : List Float :=
  match points.find? fun p => squaredReach p x y == 0.0 with
  | some p => p.values
  | none =>
      let weights := points.map fun p => (p, 1.0 / squaredReach p x y)
      let total := weights.foldl (fun sum (_, w) => sum + w) 0.0
      let sums := weights.foldl
        (fun sums (p, w) => List.zipWith (fun s v => s + v * w) sums p.values)
        [0.0, 0.0, 0.0, 0.0]
      sums.map (· / greatestFloat total epsilon)

/-- The channels of every pixel computed from colored places. -/
def sparseColor (r : Raster) (method : SparseMethod) (channels : ChannelSet)
    (points : List SparsePoint) : Raster :=
  r.mapPlaces fun column row c =>
    let x := Float.ofNat column
    let y := Float.ofNat row
    let values := match method with
      | .voronoi => nearestValues points x y
      | _ => weighedValues points x y
    (channels.members.zip values).foldl (fun c (k, v) => c.put k (nearestByte (v * 255.0))) c

end Raster
end Darkroom
