import Darkroom.Geometry.Tiles
import Darkroom.Proofs.Geometry.Rect
import Darkroom.Proofs.Number.Arithmetic

/-!
# Tiles partition an image

Both ways to cut an image without an offset cut each side at a growing sequence of places and keep
the stretches that are not empty.  Such stretches follow each other from one end of the side to the
other, so that a grid of them has each pixel in exactly one of its rectangles.  With an offset one
rectangle is cut: the pixels which the image has in common with the region.
-/

namespace Darkroom
namespace Tiles

/-! ## Stretches of a side -/

/-- The place behind a stretch of a side. -/
def behind (stretch : Int64 × UInt32) : Int :=
  stretch.1.toInt + stretch.2.toNat

/-- Stretches that are not empty follow each other from one place to another. -/
inductive Consecutive : Nat → List (Int64 × UInt32) → Nat → Prop where
  | nil (place : Nat) : Consecutive place [] place
  | cons
      {start stop : Nat}
      {stretch : Int64 × UInt32}
      {rest : List (Int64 × UInt32)}
      (starts : stretch.1.toInt = start)
      (nonempty : 0 < stretch.2.toNat)
      (follows : Consecutive (start + stretch.2.toNat) rest stop) :
      Consecutive start (stretch :: rest) stop

namespace Consecutive

variable {start middle stop : Nat} {stretches more : List (Int64 × UInt32)}

theorem append
    (first : Consecutive start stretches middle)
    (second : Consecutive middle more stop) :
    Consecutive start (stretches ++ more) stop := by
  induction first with
  | nil => exact second
  | cons starts nonempty _ inductionHypothesis =>
      exact .cons starts nonempty (inductionHypothesis second)

theorem start_le
    (consecutive : Consecutive start stretches stop) :
    start ≤ stop := by
  induction consecutive with
  | nil => exact le_refl _
  | cons _ _ _ inductionHypothesis => omega

theorem bounds
    (consecutive : Consecutive start stretches stop) :
    ∀ stretch ∈ stretches, start ≤ stretch.1.toInt ∧ 0 < stretch.2.toNat ∧
      behind stretch ≤ stop := by
  induction consecutive with
  | nil => exact List.forall_mem_nil _
  | cons starts nonempty follows inductionHypothesis =>
      have ends := follows.start_le
      refine List.forall_mem_cons.mpr ⟨⟨by omega, nonempty, ?_⟩, fun stretch mem => ?_⟩
      · unfold behind
        omega
      · obtain ⟨lower, positive, upper⟩ := inductionHypothesis stretch mem
        exact ⟨by omega, positive, upper⟩

/-- Each stretch ends before the later ones begin. -/
theorem ordered
    (consecutive : Consecutive start stretches stop) :
    stretches.Pairwise fun stretch later => behind stretch ≤ later.1.toInt := by
  induction consecutive with
  | nil => exact .nil
  | cons starts _ follows inductionHypothesis =>
      refine .cons (fun later mem => ?_) inductionHypothesis
      have lower := (follows.bounds later mem).1
      unfold behind
      omega

/-- Each place lies on one of the stretches. -/
theorem covers
    (consecutive : Consecutive start stretches stop)
    {place : Nat}
    (lower : start ≤ place)
    (upper : place < stop) :
    ∃ stretch ∈ stretches, stretch.1.toInt ≤ place ∧ place < behind stretch := by
  induction consecutive with
  | nil => omega
  | @cons start stop stretch rest starts nonempty _ inductionHypothesis =>
      by_cases inFirst : place < start + stretch.2.toNat
      · refine ⟨stretch, List.mem_cons_self, by omega, ?_⟩
        unfold behind
        omega
      · obtain ⟨found, mem, on⟩ := inductionHypothesis (by omega) upper
        exact ⟨found, List.mem_cons_of_mem _ mem, on⟩

end Consecutive

/-! ## Cutting a side -/

/-- The stretch between two places of a side. -/
def between (start stop : Nat) : Int64 × UInt32 :=
  (Int64.ofNat start, UInt32.ofNat (stop - start))

theorem toNat_between
    {start stop : Nat}
    (inRange : stop < 2 ^ 32) :
    (between start stop).2.toNat = stop - start :=
  UInt32.toNat_ofNat_of_lt' (Nat.lt_of_le_of_lt (Nat.sub_le _ _) inRange)

/-- A stretch that is not empty is the only one between its ends. -/
theorem consecutive_between
    {start stop : Nat}
    (nonempty : start < stop)
    (inRange : stop < 2 ^ 32) :
    Consecutive start [between start stop] stop := by
  have first : (between start stop).1.toInt = start :=
    Int64.toInt_ofNat_of_lt (by omega)
  have length : (between start stop).2.toNat = stop - start := toNat_between inRange
  refine .cons first (by omega) ?_
  rw [length, Nat.add_sub_of_le (by omega)]
  exact .nil stop

/-- The stretches between the places where a side is cut; empty ones are left out. -/
def pieces (cut : Nat → Nat) (n : Nat) : List (Int64 × UInt32) :=
  (List.range n).filterMap fun i =>
    if cut i < cut (i + 1) then some (between (cut i) (cut (i + 1))) else none

theorem consecutive_pieces
    (cut : Nat → Nat)
    (grows : ∀ i, cut i ≤ cut (i + 1))
    {n : Nat}
    (inRange : ∀ i ≤ n, cut i < 2 ^ 32) :
    Consecutive (cut 0) (pieces cut n) (cut n) := by
  induction n with
  | zero => exact .nil _
  | succ n inductionHypothesis =>
      -- The stretches up to the last cut but one, then the one behind it unless it is empty.
      have before := inductionHypothesis fun i le => inRange i (by omega)
      unfold pieces at before ⊢
      rw [List.range_succ, List.filterMap_append]
      refine before.append ?_
      rw [List.filterMap_cons, List.filterMap_nil]
      by_cases nonempty : cut n < cut (n + 1)
      · rw [if_pos nonempty]
        exact consecutive_between nonempty (inRange (n + 1) (le_refl _))
      · rw [if_neg nonempty, Nat.le_antisymm (grows n) (Nat.not_lt.mp nonempty)]
        exact .nil _

/-- The stretches of a side that is split into a number of parts. -/
theorem consecutive_split
    {parts : Nat}
    (positive : 1 ≤ parts)
    (side : UInt32) :
    Consecutive 0 (split parts side) side.toNat := by
  have less := side.toNat_lt
  have bounded : ∀ i ≤ parts, i * side.toNat / parts ≤ side.toNat := fun i le =>
    Nat.div_le_of_le_mul (Nat.mul_le_mul_right _ le)
  have cut := consecutive_pieces (fun i => i * side.toNat / parts)
    (fun i => Nat.div_le_div_right (Nat.mul_le_mul_right _ (Nat.le_succ i)))
    (fun i le => Nat.lt_of_le_of_lt (bounded i le) less)
  rwa [Nat.zero_mul, Nat.zero_div, Nat.mul_div_cancel_left _ positive] at cut

/-- The number of tiles that cover a side. -/
def count (tile side : UInt32) : Nat :=
  (side.toNat + (tile.toNat - 1)) / tile.toNat

theorem starts_eq
    (tile side : UInt32) :
    starts tile side =
      (List.range (count tile side)).map fun i => Int64.ofNat (i * tile.toNat) := rfl

/-- Where tiles cut a side; the last tile ends with the side. -/
def edge (tile side : UInt32) (i : Nat) : Nat :=
  min (i * tile.toNat) side.toNat

/-- The stretches of a side that tiles cover. -/
def tiled (tile side : UInt32) : List (Int64 × UInt32) :=
  pieces (edge tile side) (count tile side)

section Tiled

variable {tile side : UInt32} (fits : tile.toNat = 0 → side.toNat = 0)

include fits

theorem lt_count_iff
    (i : Nat) :
    i < count tile side ↔ i * tile.toNat < side.toNat := by
  unfold count
  rcases Nat.eq_zero_or_pos tile.toNat with zero | positive
  · rw [zero, fits zero]
    simp
  · have divided :=
      Nat.le_div_iff_mul_le positive (x := i + 1) (y := side.toNat + (tile.toNat - 1))
    rw [Nat.succ_mul] at divided
    omega

theorem edge_of_lt
    {i : Nat}
    (less : i < count tile side) :
    edge tile side i = i * tile.toNat :=
  Nat.min_eq_left (Nat.le_of_lt ((lt_count_iff fits i).mp less))

theorem edge_lt
    {i : Nat}
    (less : i < count tile side) :
    edge tile side i < edge tile side (i + 1) := by
  have inside := (lt_count_iff fits i).mp less
  unfold edge
  rw [Nat.succ_mul]
  omega

theorem tiled_eq_map :
    tiled tile side =
      (List.range (count tile side)).map fun i =>
        between (edge tile side i) (edge tile side (i + 1)) := by
  rw [tiled, pieces, ← List.filterMap_eq_map]
  exact List.filterMap_congr fun i mem => if_pos (edge_lt fits (List.mem_range.mp mem))

theorem consecutive_tiled :
    Consecutive 0 (tiled tile side) side.toNat := by
  have less := side.toNat_lt
  have last : side.toNat ≤ count tile side * tile.toNat :=
    Nat.not_lt.mp (mt (lt_count_iff fits _).mpr (Nat.lt_irrefl _))
  have cut := consecutive_pieces (edge tile side) (n := count tile side)
    (fun i => min_le_min_right _ (Nat.mul_le_mul_right _ (Nat.le_succ i)))
    (fun i _ => Nat.lt_of_le_of_lt (Nat.min_le_right _ _) less)
  have ends : edge tile side (count tile side) = side.toNat := Nat.min_eq_right last
  have begins : edge tile side 0 = 0 := by rw [edge, Nat.zero_mul, Nat.zero_min]
  rwa [ends, begins] at cut

/-- What a side keeps of one of its tiles. -/
theorem common_tile
    {i : Nat}
    (less : i < count tile side)
    {start : Int64}
    (started : start = Int64.ofNat (i * tile.toNat)) :
    max start 0 = (between (edge tile side i) (edge tile side (i + 1))).1 ∧
      (max start 0).toInt < (min (start + wide tile) (wide side)).toInt ∧
      narrow (min (start + wide tile) (wide side) - max start 0) =
        (between (edge tile side i) (edge tile side (i + 1))).2 := by
  have inside := (lt_count_iff fits i).mp less
  have range := side.toNat_lt
  have tileRange := tile.toNat_lt
  have place : start.toInt = (i * tile.toNat : Nat) := by
    rw [started]
    exact Int64.toInt_ofNat_of_lt (by omega)
  have first : (max start 0).toInt = (i * tile.toNat : Nat) := by
    rw [toInt_max, place, Int64.toInt_zero]
    omega
  have next : edge tile side (i + 1) = min (i * tile.toNat + tile.toNat) side.toNat := by
    rw [edge, Nat.succ_mul]
  have last : (min (start + wide tile) (wide side)).toInt = edge tile side (i + 1) := by
    rw [toInt_min, toInt_wide, next]
    rcases toInt_add_wide start tile with exact | ⟨far, -⟩
    · rw [exact, place]
      omega
    · omega
  have nonempty : (max start 0).toInt < (min (start + wide tile) (wide side)).toInt := by
    have grows := edge_lt fits less
    rw [edge_of_lt fits less] at grows
    omega
  refine ⟨?_, nonempty, ?_⟩
  · rw [between, edge_of_lt fits less, ← started]
    exact Int64.toInt_inj.mp (first.trans place.symm)
  · have length := (toNat_narrow_common nonempty).trans (toInt_sub_common nonempty)
    have inRange : edge tile side (i + 1) < 2 ^ 32 :=
      Nat.lt_of_le_of_lt (Nat.min_le_right _ _) range
    rw [← UInt32.toNat_inj, toNat_between inRange, edge_of_lt fits less]
    omega

end Tiled

/-- A tile size is not zero on a side that is not. -/
theorem length_fits
    (percent : Bool)
    (asked : Option Float)
    (side : UInt32) :
    (length percent asked side).toNat = 0 → side.toNat = 0 := by
  unfold length
  extract_lets n
  split
  · exact id
  next nonzero =>
  exact fun zero => absurd (UInt32.toNat_inj.mp zero) nonzero

/-! ## Grids -/

/-- A rectangle ends above another, or on its rows and left of it. -/
def Precedes (tile later : Rect) : Prop :=
  tile.y.toInt + tile.height.toNat ≤ later.y.toInt ∨
    tile.y = later.y ∧ tile.x.toInt + tile.width.toNat ≤ later.x.toInt

theorem grid_eq
    (columns rows : List (Int64 × UInt32)) :
    grid columns rows =
      rows.flatMap fun row => columns.map fun column => ⟨column.1, row.1, column.2, row.2⟩ := rfl

theorem mem_grid
    {columns rows : List (Int64 × UInt32)}
    {tile : Rect} :
    tile ∈ grid columns rows ↔
      ∃ row ∈ rows, ∃ column ∈ columns, tile = ⟨column.1, row.1, column.2, row.2⟩ := by
  simp only [grid_eq, List.mem_flatMap, List.mem_map, eq_comm]

theorem pairwise_grid
    {columns rows : List (Int64 × UInt32)}
    (across : columns.Pairwise fun stretch later => behind stretch ≤ later.1.toInt)
    (down : rows.Pairwise fun stretch later => behind stretch ≤ later.1.toInt) :
    (grid columns rows).Pairwise Precedes := by
  refine List.pairwise_flatMap.mpr ⟨fun row _ => ?_, down.imp fun {row later} above => ?_⟩
  · exact List.pairwise_map.mpr (across.imp fun left => .inr ⟨rfl, left⟩)
  · intro tile inRow tile' inLater
    obtain ⟨_, -, rfl⟩ := List.mem_map.mp inRow
    obtain ⟨_, -, rfl⟩ := List.mem_map.mp inLater
    exact .inl above

/-- Rectangles that share out the pixels of an image, row by row. -/
structure Partition (tiles : List Rect) (image : Size) : Prop where
  /-- They are parts of the image. -/
  isPart : ∀ tile ∈ tiles, tile.IsPart image
  /-- No two of them have a pixel in common. -/
  disjoint : tiles.Pairwise fun tile later => ∀ x y, ¬ (tile.Contains x y ∧ later.Contains x y)
  /-- Each pixel of the image is in exactly one of them. -/
  covers : ∀ x y, image.Contains x y → tiles.countP (fun tile => tile.Contains x y) = 1
  /-- They come row by row, and from left to right in each row. -/
  rowMajor : tiles.Pairwise fun tile later =>
    tile.y < later.y ∨ tile.y = later.y ∧ tile.x < later.x

theorem countP_eq_one
    {α : Type}
    {p : α → Bool}
    {items : List α}
    (apart : items.Pairwise fun item later => ¬ (p item = true ∧ p later = true))
    (found : ∃ item ∈ items, p item = true) :
    items.countP p = 1 := by
  induction items with
  | nil => simp at found
  | cons item items inductionHypothesis =>
      obtain ⟨first, rest⟩ := List.pairwise_cons.mp apart
      rw [List.countP_cons]
      by_cases here : p item = true
      · have none : items.countP p = 0 :=
          List.countP_eq_zero.mpr fun later mem there => first later mem ⟨here, there⟩
        rw [none, if_pos here]
      · have later : ∃ item ∈ items, p item = true := by
          obtain ⟨found, mem, holds⟩ := found
          rcases List.mem_cons.mp mem with rfl | mem
          · exact absurd holds here
          · exact ⟨found, mem, holds⟩
        rw [inductionHypothesis rest later, if_neg here]

/-- The grid of stretches that follow each other over both sides of an image. -/
theorem partition_grid
    {image : Size}
    {columns rows : List (Int64 × UInt32)}
    (across : Consecutive 0 columns image.width.toNat)
    (down : Consecutive 0 rows image.height.toNat) :
    Partition (grid columns rows) image := by
  have isPart : ∀ tile ∈ grid columns rows, tile.IsPart image := by
    intro tile mem
    obtain ⟨row, inRows, column, inColumns, rfl⟩ := mem_grid.mp mem
    obtain ⟨left, wide, right⟩ := across.bounds column inColumns
    obtain ⟨top, tall, bottom⟩ := down.bounds row inRows
    exact ⟨wide, tall, left, top, right, bottom⟩
  have precedes := pairwise_grid across.ordered down.ordered
  have disjoint : (grid columns rows).Pairwise fun tile later =>
      ∀ x y, ¬ (tile.Contains x y ∧ later.Contains x y) := by
    refine precedes.imp fun {tile later} precedes x y ⟨first, second⟩ => ?_
    unfold Rect.Contains at first second
    rcases precedes with above | ⟨same, left⟩ <;> omega
  refine ⟨isPart, disjoint, fun x y inside => ?_, ?_⟩
  · refine countP_eq_one (disjoint.imp fun apart => by simpa using apart x y) ?_
    obtain ⟨column, inColumns, horizontal⟩ := across.covers (Nat.zero_le x) inside.1
    obtain ⟨row, inRows, vertical⟩ := down.covers (Nat.zero_le y) inside.2
    exact ⟨_, mem_grid.mpr ⟨row, inRows, column, inColumns, rfl⟩,
      decide_eq_true ⟨horizontal, vertical⟩⟩
  · refine precedes.imp_of_mem fun {tile later} mem _ precedes => ?_
    have tall := (isPart tile mem).tall
    have wide := (isPart tile mem).wide
    simp only [Int64.lt_iff_toInt_lt]
    rcases precedes with above | ⟨same, left⟩
    · exact .inl (by omega)
    · exact .inr ⟨same, by omega⟩

end Tiles

open Tiles

/-! ## The rectangles of a crop -/

/-- The clipped tiles of an image are a grid. -/
theorem flatMap_starts_eq_grid
    {width height : UInt32}
    {image : Size}
    (across : width.toNat = 0 → image.width.toNat = 0)
    (down : height.toNat = 0 → image.height.toNat = 0) :
    ((starts height image.height).flatMap fun y =>
        (starts width image.width).filterMap fun x => Rect.clipTo ⟨x, y, width, height⟩ image) =
      grid (tiled width image.width) (tiled height image.height) := by
  rw [grid_eq, tiled_eq_map across, tiled_eq_map down]
  rw [starts_eq height, starts_eq width, List.flatMap_map, List.flatMap_map]
  -- No tile misses the image, so that filtering the clipped tiles of a row is mapping.
  refine List.flatMap_congr fun j inRows => ?_
  rw [List.filterMap_map, List.map_map, ← List.filterMap_eq_map]
  refine List.filterMap_congr fun i inColumns => ?_
  obtain ⟨left, wide, width⟩ := common_tile across (List.mem_range.mp inColumns) rfl
  obtain ⟨top, tall, height⟩ := common_tile down (List.mem_range.mp inRows) rfl
  unfold Rect.clipTo
  dsimp only [Function.comp]
  rw [if_neg, width, height, left, top]
  simp only [Int64.le_iff_toInt_le, not_or, not_le]
  exact ⟨wide, tall⟩

/-- The rectangle that a region with an offset asks for: what is missing or zero is the side of the
image, a missing height is the width. -/
def Region.rect (r : Region) (image : Size) : Rect where
  x := r.x
  y := r.y
  width := length r.modifiers.percent r.width image.width
  height := length r.modifiers.percent (r.height.orElse fun _ => r.width) image.height

/-- Without an offset, or split into a number of parts, an image is shared out among its tiles. -/
theorem partition_cropRegions
    {region : Region}
    (tiled : region.hasOffset = false ∨ region.modifiers.area = true)
    (image : Size) :
    Partition (cropRegions image region) image := by
  unfold cropRegions
  extract_lets tallness parts width height
  by_cases area : region.modifiers.area = true
  · rw [if_pos area]
    exact partition_grid (consecutive_split (one_le_truncUInt32_greatest _) _)
      (consecutive_split (one_le_truncUInt32_greatest _) _)
  · have noOffset : ¬ region.hasOffset = true := by
      rw [tiled.resolve_right area]
      exact Bool.false_ne_true
    rw [if_neg area]
    have across : width.toNat = 0 → image.width.toNat = 0 := length_fits _ _ _
    have down : height.toNat = 0 → image.height.toNat = 0 := length_fits _ _ _
    rw [if_neg noOffset, flatMap_starts_eq_grid across down]
    exact partition_grid (consecutive_tiled across) (consecutive_tiled down)

/-- With an offset, one rectangle is cut: the pixels that the image and the region have in common;
nothing is cut when there are none. -/
theorem cropRegions_offset
    {region : Region}
    (offset : region.hasOffset = true)
    (notSplit : region.modifiers.area = false)
    (image : Size) :
    (∃ part : Rect, cropRegions image region = [part] ∧ part.IsPart image ∧
      ∀ x y, part.Contains x y ↔ image.Contains x y ∧ (region.rect image).Contains x y) ∨
    cropRegions image region = [] ∧
      ∀ x y, ¬ (image.Contains x y ∧ (region.rect image).Contains x y) := by
  have cut : cropRegions image region = ((region.rect image).clipTo image).toList := by
    unfold cropRegions
    extract_lets tallness parts width height
    rw [if_neg (by rw [notSplit]; exact Bool.false_ne_true), if_pos offset]
    rfl
  rw [cut]
  cases clipped : (region.rect image).clipTo image with
  | none => exact .inr ⟨rfl, Rect.clipTo_eq_none clipped⟩
  | some part => exact .inl ⟨part, rfl, Rect.clipTo_eq_some clipped⟩

/-- The rectangles of a crop.  Without an offset, or split into a number of parts, they share out
the image; else there is one, of the pixels that the image and the region have in common, or none
when they have none. -/
theorem cropRegions_shared_or_common
    (image : Size)
    (region : Region) :
    (region.hasOffset = false ∨ region.modifiers.area = true →
      Partition (cropRegions image region) image) ∧
    (region.hasOffset = true → region.modifiers.area = false →
      (∃ part : Rect, cropRegions image region = [part] ∧ part.IsPart image ∧
        ∀ x y, part.Contains x y ↔ image.Contains x y ∧ (region.rect image).Contains x y) ∨
      cropRegions image region = [] ∧
        ∀ x y, ¬ (image.Contains x y ∧ (region.rect image).Contains x y)) :=
  ⟨fun tiled => partition_cropRegions tiled image,
    fun offset notSplit => cropRegions_offset offset notSplit image⟩

/-- Three tiles share out a small image, the last of them narrower; a square at its corner has the
pixels that are left of it. -/
theorem cropRegions_ninety_by_forty :
    Partition [⟨0, 0, 40, 40⟩, ⟨40, 0, 40, 40⟩, ⟨80, 0, 10, 40⟩] ⟨90, 40⟩ ∧
      ∀ x y, (⟨70, 20, 20, 20⟩ : Rect).Contains x y ↔
        (⟨90, 40⟩ : Size).Contains x y ∧ (⟨70, 20, 50, 50⟩ : Rect).Contains x y := by
  constructor
  · have tiles : cropRegions ⟨90, 40⟩ { width := some 40.0, height := some 40.0 } =
        [⟨0, 0, 40, 40⟩, ⟨40, 0, 40, 40⟩, ⟨80, 0, 10, 40⟩] := by
      decide
    rw [← tiles]
    exact (cropRegions_shared_or_common _ _).1 (.inl rfl)
  · have cut : cropRegions ⟨90, 40⟩ { width := some 50.0, x? := some 70, y? := some 20 } =
        [⟨70, 20, 20, 20⟩] := by
      decide
    have asked : Region.rect { width := some 50.0, x? := some 70, y? := some 20 } ⟨90, 40⟩ =
        ⟨70, 20, 50, 50⟩ := by
      decide
    rcases (cropRegions_shared_or_common ⟨90, 40⟩
        { width := some 50.0, x? := some 70, y? := some 20 }).2 rfl rfl with
      ⟨part, single, -, common⟩ | ⟨nothing, -⟩
    · rw [cut] at single
      obtain rfl := (List.cons.inj single).1
      rwa [asked] at common
    · rw [cut] at nothing
      cases nothing

end Darkroom
