import Darkroom.Proofs.Geometry.Page
import Darkroom.Proofs.Geometry.Tiles

/-!
# Boxes around rectangles

The columns of rectangles, and their rows, are stretches of an axis.  The box around the layers of
an image is computed in words from the first start and the last end of each.  As long as no end
leaves its word it is the smallest rectangle around the layers just when they span less than a word
of 32 bits counts; a longer span is cut down, so that layers which are far apart leave their box.
-/

namespace Darkroom

open Tiles (behind)

/-! ## Extremes of words -/

instance instLawfulOrderMaxInt64 : Std.LawfulOrderMax Int64 where
  max_eq_or a b := by
    simp only [← Int64.toInt_inj, toInt_max]
    omega
  max_le_iff a b c := by
    simp only [Int64.le_iff_toInt_le, toInt_max]
    omega

theorem foldl_min_eq
    {words : List Int64}
    {start least : Int64}
    (found : words.min? = some least)
    (le : least ≤ start) :
    words.foldl min start = least := by
  rw [Int64.le_iff_toInt_le] at le
  rw [List.foldl_min, found, Option.getD_some, ← Int64.toInt_inj, toInt_min]
  exact min_eq_right le

theorem foldl_max_eq
    {words : List Int64}
    {start greatest : Int64}
    (found : words.max? = some greatest)
    (le : start ≤ greatest) :
    words.foldl max start = greatest := by
  rw [Int64.le_iff_toInt_le] at le
  rw [List.foldl_max, found, Option.getD_some, ← Int64.toInt_inj, toInt_max]
  exact max_eq_right le

/-! ## Stretches around stretches -/

/-- Every place of a stretch is one of another; a stretch without places has its ends there. -/
def ReachesOver (outer inner : Int64 × UInt32) : Prop :=
  outer.1.toInt ≤ inner.1.toInt ∧ behind inner ≤ behind outer

/-- The shortest stretch around stretches: it reaches over them all, and some of them have its
ends. -/
structure IsHull (hull : Int64 × UInt32) (stretches : List (Int64 × UInt32)) : Prop where
  /-- It reaches over each of them. -/
  reaches : ∀ stretch ∈ stretches, ReachesOver hull stretch
  /-- One of them begins where it does. -/
  start : ∃ stretch ∈ stretches, stretch.1 = hull.1
  /-- One of them ends where it does. -/
  stop : ∃ stretch ∈ stretches, behind stretch = behind hull

namespace IsHull

variable {hull other : Int64 × UInt32} {stretches : List (Int64 × UInt32)}

/-- Whatever reaches over all of the stretches reaches over the one around them. -/
theorem least
    (isHull : IsHull hull stretches)
    (reaches : ∀ stretch ∈ stretches, ReachesOver other stretch) :
    ReachesOver other hull := by
  obtain ⟨first, firstMem, start⟩ := isHull.start
  obtain ⟨last, lastMem, stop⟩ := isHull.stop
  constructor
  · rw [← start]
    exact (reaches first firstMem).1
  · rw [← stop]
    exact (reaches last lastMem).2

/-- Stretches that one stretch reaches over span no more than its length. -/
theorem span_lt
    (isHull : IsHull hull stretches)
    {first last : Int64 × UInt32}
    (firstMem : first ∈ stretches)
    (lastMem : last ∈ stretches) :
    behind last - first.1.toInt < 2 ^ 32 := by
  have begins := (isHull.reaches first firstMem).1
  have ends : behind last ≤ hull.1.toInt + hull.2.toNat := (isHull.reaches last lastMem).2
  have less := hull.2.toNat_lt
  omega

end IsHull

/-- The stretch from the first start to the last end, all of them words. -/
def hull (stretches : List (Int64 × UInt32)) : Int64 × UInt32 :=
  let start := (stretches.map fun stretch => stretch.1).foldl min Int64.maxValue
  let stop := (stretches.map fun stretch => stretch.1 + wide stretch.2).foldl max Int64.minValue
  (start, narrow (stop - start))

theorem toInt_end
    {stretch : Int64 × UInt32}
    (inRange : behind stretch < 2 ^ 63) :
    (stretch.1 + wide stretch.2).toInt = behind stretch := by
  unfold behind at inRange ⊢
  have below := stretch.1.le_toInt
  rcases toInt_add_wide stretch.1 stretch.2 with exact | ⟨far, negative⟩
  · exact exact
  · rw [Int64.toInt_add, toInt_wide, Int.bmod_def]
    omega

/-- As long as all ends are in range, the first start and the last end belong to stretches. -/
theorem exists_ends
    {stretches : List (Int64 × UInt32)}
    (nonempty : stretches ≠ [])
    (inRange : ∀ stretch ∈ stretches, behind stretch < 2 ^ 63) :
    ∃ first ∈ stretches, ∃ last ∈ stretches, ∃ stop : Int64,
      stop.toInt = behind last ∧ hull stretches = (first.1, narrow (stop - first.1)) ∧
      ∀ stretch ∈ stretches, first.1.toInt ≤ stretch.1.toInt ∧ behind stretch ≤ behind last := by
  obtain ⟨start, least⟩ := Option.isSome_iff_exists.mp (List.isSome_min?_of_ne_nil
    (l := stretches.map fun stretch => stretch.1) (by simpa using nonempty))
  obtain ⟨stop, greatest⟩ := Option.isSome_iff_exists.mp (List.isSome_max?_of_ne_nil
    (l := stretches.map fun stretch => stretch.1 + wide stretch.2) (by simpa using nonempty))
  have words : hull stretches = (start, narrow (stop - start)) := by
    rw [hull, foldl_min_eq least start.le_maxValue, foldl_max_eq greatest stop.minValue_le]
  obtain ⟨startMem, below⟩ := List.min?_eq_some_iff.mp least
  obtain ⟨stopMem, above⟩ := List.max?_eq_some_iff.mp greatest
  obtain ⟨first, firstMem, rfl⟩ := List.mem_map.mp startMem
  obtain ⟨last, lastMem, rfl⟩ := List.mem_map.mp stopMem
  refine ⟨first, firstMem, last, lastMem, _, toInt_end (inRange last lastMem), words,
    fun stretch mem => ⟨?_, ?_⟩⟩
  · exact Int64.le_iff_toInt_le.mp (below _ (List.mem_map_of_mem mem))
  · have order := Int64.le_iff_toInt_le.mp
      (above _ (List.mem_map_of_mem (f := fun stretch => stretch.1 + wide stretch.2) mem))
    rwa [toInt_end (inRange last lastMem), toInt_end (inRange stretch mem)] at order

/-- As long as all ends are in range and span less than a length counts, the stretch from the first
start to the last end is the shortest one around the stretches. -/
theorem isHull_hull
    {stretches : List (Int64 × UInt32)}
    (nonempty : stretches ≠ [])
    (inRange : ∀ stretch ∈ stretches, behind stretch < 2 ^ 63)
    (span : ∀ first ∈ stretches, ∀ last ∈ stretches, behind last - first.1.toInt < 2 ^ 32) :
    IsHull (hull stretches) stretches := by
  obtain ⟨first, firstMem, last, lastMem, stop, stop_eq, words, bounds⟩ :=
    exists_ends nonempty inRange
  have short := span first firstMem last lastMem
  have growing : first.1.toInt ≤ behind last := by
    have ends := (bounds first firstMem).2
    unfold behind at ends ⊢
    omega
  have difference : (stop - first.1).toInt = behind last - first.1.toInt := by
    rw [Int64.toInt_sub, stop_eq, Int.bmod_def]
    omega
  have length := toNat_narrow (n := stop - first.1) (by omega) (by omega)
  have whole : behind (hull stretches) = behind last := by
    rw [words]
    unfold behind at difference ⊢
    dsimp only
    omega
  refine ⟨fun stretch mem => ⟨?_, ?_⟩, ⟨first, firstMem, ?_⟩, ⟨last, lastMem, whole.symm⟩⟩
  · rw [words]
    exact (bounds stretch mem).1
  · rw [whole]
    exact (bounds stretch mem).2
  · rw [words]

namespace Rect

/-! ## Rectangles around rectangles -/

/-- The columns of a rectangle. -/
def columns (r : Rect) : Int64 × UInt32 :=
  (r.x, r.width)

/-- The rows of a rectangle. -/
def rows (r : Rect) : Int64 × UInt32 :=
  (r.y, r.height)

/-- A rectangle that lies within another. -/
def Surrounds (outer inner : Rect) : Prop :=
  ReachesOver outer.columns inner.columns ∧ ReachesOver outer.rows inner.rows

/-- A rectangle in which all of some rectangles lie, while each of its four sides is touched by one
of them. -/
structure IsBoxAround (box : Rect) (rects : List Rect) : Prop where
  /-- Its columns are the fewest that hold all theirs. -/
  columns : IsHull box.columns (rects.map Rect.columns)
  /-- Its rows are the fewest that hold all theirs. -/
  rows : IsHull box.rows (rects.map Rect.rows)

/-- Neither the columns nor the rows of the rectangles end beyond the range of coordinates. -/
def EndInRange (rects : List Rect) : Prop :=
  ∀ r ∈ rects, behind r.columns < 2 ^ 63 ∧ behind r.rows < 2 ^ 63

/-- The columns of the rectangles, and their rows, span less than a length counts. -/
def SpanLength (rects : List Rect) : Prop :=
  ∀ first ∈ rects, ∀ last ∈ rects,
    behind last.columns - first.columns.1.toInt < 2 ^ 32 ∧
      behind last.rows - first.rows.1.toInt < 2 ^ 32

instance (outer inner : Rect) : Decidable (outer.Surrounds inner) :=
  inferInstanceAs (Decidable ((_ ∧ _) ∧ _ ∧ _))

instance (rects : List Rect) : Decidable (EndInRange rects) :=
  inferInstanceAs (Decidable (∀ r ∈ rects, _))

instance (rects : List Rect) : Decidable (SpanLength rects) :=
  inferInstanceAs (Decidable (∀ first ∈ rects, ∀ last ∈ rects, _))

variable {box other : Rect} {rects : List Rect}

theorem IsBoxAround.surrounds
    (isBox : box.IsBoxAround rects) :
    ∀ r ∈ rects, box.Surrounds r := fun _ mem =>
  ⟨isBox.columns.reaches _ (List.mem_map_of_mem mem),
    isBox.rows.reaches _ (List.mem_map_of_mem mem)⟩

/-- Whatever rectangle surrounds them all surrounds their box. -/
theorem IsBoxAround.least
    (isBox : box.IsBoxAround rects)
    (surrounds : ∀ r ∈ rects, other.Surrounds r) :
    other.Surrounds box :=
  ⟨isBox.columns.least (List.forall_mem_map.mpr fun r mem => (surrounds r mem).1),
    isBox.rows.least (List.forall_mem_map.mpr fun r mem => (surrounds r mem).2)⟩

theorem surrounds_iff
    {outer inner : Rect} :
    outer.Surrounds inner ↔
      (outer.x.toInt ≤ inner.x.toInt ∧
        inner.x.toInt + inner.width.toNat ≤ outer.x.toInt + outer.width.toNat) ∧
      outer.y.toInt ≤ inner.y.toInt ∧
        inner.y.toInt + inner.height.toNat ≤ outer.y.toInt + outer.height.toNat :=
  Iff.rfl

/-- The place of a rectangle within another is a difference of words. -/
theorem Surrounds.toInt_sub
    {outer inner : Rect}
    (surrounds : outer.Surrounds inner) :
    (inner.x - outer.x).toInt = inner.x.toInt - outer.x.toInt ∧
      (inner.y - outer.y).toInt = inner.y.toInt - outer.y.toInt := by
  have width := outer.width.toNat_lt
  have height := outer.height.toNat_lt
  have within := surrounds_iff.mp surrounds
  rw [Int64.toInt_sub, Int64.toInt_sub, Int.bmod_def, Int.bmod_def]
  omega

theorem Surrounds.covers
    {outer inner : Rect}
    (surrounds : outer.Surrounds inner)
    {x y : Int}
    (covers : inner.Covers x y) :
    outer.Covers x y := by
  have within := surrounds_iff.mp surrounds
  unfold Covers at covers ⊢
  omega

/-- Only rectangles that span less than a length counts have a box around them. -/
theorem IsBoxAround.spanLength
    (isBox : box.IsBoxAround rects) :
    SpanLength rects := by
  intro first firstMem last lastMem
  have across (r : Rect) (mem : r ∈ rects) : r.columns ∈ rects.map Rect.columns :=
    List.mem_map_of_mem mem
  have down (r : Rect) (mem : r ∈ rects) : r.rows ∈ rects.map Rect.rows :=
    List.mem_map_of_mem mem
  exact ⟨isBox.columns.span_lt (across first firstMem) (across last lastMem),
    isBox.rows.span_lt (down first firstMem) (down last lastMem)⟩

end Rect

/-! ## Layers -/

/-- Where layers lie: each with its size at the offset of its page. -/
def layerPlaces (layers : List (Page × Size)) : List Rect :=
  layers.map fun (page, size) => ⟨page.x, page.y, size.width, size.height⟩

theorem layerBounds_eq
    {layers : List (Page × Size)}
    (nonempty : layers ≠ []) :
    (layerBounds layers).columns = hull ((layerPlaces layers).map Rect.columns) ∧
      (layerBounds layers).rows = hull ((layerPlaces layers).map Rect.rows) := by
  cases layers with
  | nil => exact absurd rfl nonempty
  | cons layer rest =>
    simp only [layerBounds, hull, layerPlaces, List.map_map, List.foldl_map]
    exact ⟨rfl, rfl⟩

/-- As long as no layer ends beyond the range of coordinates and the layers span less than a length
counts, their bounds are the box around them. -/
theorem isBoxAround_layerBounds
    {layers : List (Page × Size)}
    (nonempty : layers ≠ [])
    (inRange : Rect.EndInRange (layerPlaces layers))
    (span : Rect.SpanLength (layerPlaces layers)) :
    (layerBounds layers).IsBoxAround (layerPlaces layers) := by
  obtain ⟨columns, rows⟩ := layerBounds_eq nonempty
  have places : layerPlaces layers ≠ [] := by simpa [layerPlaces] using nonempty
  constructor
  · rw [columns]
    refine isHull_hull (by simpa using places) (List.forall_mem_map.mpr ?_)
      (List.forall_mem_map.mpr ?_)
    · exact fun r mem => (inRange r mem).1
    · exact fun first firstMem => List.forall_mem_map.mpr fun last lastMem =>
        (span first firstMem last lastMem).1
  · rw [rows]
    refine isHull_hull (by simpa using places) (List.forall_mem_map.mpr ?_)
      (List.forall_mem_map.mpr ?_)
    · exact fun r mem => (inRange r mem).2
    · exact fun first firstMem => List.forall_mem_map.mpr fun last lastMem =>
        (span first firstMem last lastMem).2

/-- As long as no layer ends beyond the range of coordinates, the bounds of layers are the box
around them just when the layers span less than a length counts. -/
theorem layerBounds_isBoxAround_iff
    {layers : List (Page × Size)}
    (nonempty : layers ≠ [])
    (inRange : Rect.EndInRange (layerPlaces layers)) :
    (layerBounds layers).IsBoxAround (layerPlaces layers) ↔
      Rect.SpanLength (layerPlaces layers) :=
  ⟨Rect.IsBoxAround.spanLength, isBoxAround_layerBounds nonempty inRange⟩

/-- The box around a layer to the left of the origin and a lower one to the right of it. -/
theorem layerBounds_left_and_right :
    let layers : List (Page × Size) := [({ x := -10 }, ⟨30, 10⟩), ({ x := 20, y := 5 }, ⟨10, 10⟩)]
    layers ≠ [] ∧ Rect.EndInRange (layerPlaces layers) ∧ Rect.SpanLength (layerPlaces layers) ∧
      (layerBounds layers).IsBoxAround (layerPlaces layers) ∧
      layerBounds layers = ⟨-10, 0, 40, 15⟩ := by
  intro layers
  have span : Rect.SpanLength (layerPlaces layers) := by decide
  exact ⟨by decide, by decide, span,
    (layerBounds_isBoxAround_iff (by decide) (by decide)).mpr span, by decide⟩

/-- A layer at an offset that a page text can name, farther from another than a length counts, lies
outside of their bounds. -/
theorem layerBounds_leave_far_layer :
    let far : Page := { x := 4294967296 }
    let layers : List (Page × Size) := [({}, ⟨1, 1⟩), (far, ⟨1, 1⟩)]
    Page.parse? (offsetText 0 0 4294967296 0) = some far ∧
      Rect.EndInRange (layerPlaces layers) ∧
      layerBounds layers = ⟨0, 0, 1, 1⟩ ∧
      ¬ (layerBounds layers).IsBoxAround (layerPlaces layers) := by
  intro far layers
  refine ⟨?_, by decide, by decide, fun isBox => ?_⟩
  · rw [Page.parse?_offsetText]
    decide +kernel
  · have surrounds := isBox.surrounds ⟨4294967296, 0, 1, 1⟩ (by decide)
    revert surrounds
    decide

end Darkroom
