import Darkroom.Proofs.Pixels.Layers

/-!
# Bands of columns and rows

A border, a shave, a chop and a splice treat the columns and the rows of a raster apart: each column
of the result is one of the old ones or it is new, and so is each row.  Where the columns come from
is said in whole numbers without a bound; as long as no size or edge leaves its word, the rasters
are laid out as the numbers say.  So a chop takes away just the band that a splice has inserted.
-/

namespace Darkroom

/-! ## Sides -/

/-- For each column, or row, of a raster the one of another raster that it comes from; none when it
is new. -/
abbrev Origins := List (Option Nat)

namespace Origins

/-- Old columns from one on. -/
def run (start length : Nat) : Origins :=
  (List.range' start length).map some

/-- New columns. -/
def fresh (length : Nat) : Origins :=
  List.replicate length none

/-- The columns of a side between two margins of new ones. -/
def bordered (side margin : Nat) : Origins :=
  fresh margin ++ run 0 side ++ fresh margin

/-- The columns of a side without two margins. -/
def shaved (side margin : Nat) : Origins :=
  run margin (side - 2 * margin)

/-- The columns of a side outside a band. -/
def chopped (side start length : Nat) : Origins :=
  ((List.range side).filter fun n => !(start ≤ n && n < start + length)).map some

/-- The columns of a side with new ones before one of them. -/
def spliced (side place length : Nat) : Origins :=
  run 0 place ++ fresh length ++ run place (side - place)

variable {side margin start place length i : Nat} {origin : Option Nat}

@[simp] theorem length_run (start length : Nat) : (run start length).length = length := by
  simp [run]

@[simp] theorem length_fresh (length : Nat) : (fresh length).length = length := by
  simp [fresh]

@[simp] theorem length_bordered (side margin : Nat) :
    (bordered side margin).length = side + 2 * margin := by
  simp [bordered]
  omega

@[simp] theorem length_shaved (side margin : Nat) :
    (shaved side margin).length = side - 2 * margin := by
  simp [shaved]

theorem length_spliced
    (inside : place ≤ side) :
    (spliced side place length).length = side + length := by
  simp [spliced]
  omega

theorem append_cases
    {first second : Origins}
    (found : (first ++ second)[i]? = some origin) :
    first[i]? = some origin ∨ ∃ j, second[j]? = some origin ∧ i = first.length + j := by
  rw [List.getElem?_append] at found
  split at found
  · exact .inl found
  · exact .inr ⟨i - first.length, found, by omega⟩

theorem run_cases
    (found : (run start length)[i]? = some origin) :
    i < length ∧ origin = some (start + i) := by
  have less : i < length := by simpa using (List.getElem?_eq_some_iff.mp found).1
  rw [run, List.getElem?_map, List.getElem?_range' less, Option.map_some, Nat.one_mul] at found
  exact ⟨less, (Option.some.inj found).symm⟩

theorem exists_of_mem_shaved
    (member : origin ∈ shaved side margin) :
    ∃ n, origin = some n ∧ n < side := by
  obtain ⟨n, inRange, rfl⟩ := List.mem_map.mp member
  obtain ⟨behind, before⟩ := List.mem_range'_1.mp inRange
  exact ⟨n, rfl, by omega⟩

theorem fresh_cases
    (found : (fresh length)[i]? = some origin) :
    i < length ∧ origin = none := by
  rw [fresh, List.getElem?_replicate] at found
  obtain ⟨less, same⟩ := Option.ite_none_right_eq_some.mp found
  exact ⟨less, (Option.some.inj same).symm⟩

theorem bordered_cases
    (found : (bordered side margin)[i]? = some origin) :
    origin = none ∧ (i < margin ∨ margin + side ≤ i) ∨
      ∃ n < side, origin = some n ∧ i = margin + n := by
  rcases append_cases found with inFront | ⟨j, behind, rfl⟩
  · rcases append_cases inFront with new | ⟨j, old, rfl⟩
    · obtain ⟨less, rfl⟩ := fresh_cases new
      exact .inl ⟨rfl, .inl less⟩
    · obtain ⟨less, rfl⟩ := run_cases old
      exact .inr ⟨j, less, by rw [Nat.zero_add], by rw [length_fresh]⟩
  · obtain ⟨less, rfl⟩ := fresh_cases behind
    refine .inl ⟨rfl, .inr ?_⟩
    rw [List.length_append, length_fresh, length_run]
    omega

theorem spliced_cases
    (found : (spliced side place length)[i]? = some origin) :
    origin = some i ∧ i < place ∨
      origin = none ∧ place ≤ i ∧ i < place + length ∨
      ∃ n, place ≤ n ∧ n < side ∧ origin = some n ∧ i = n + length := by
  rcases append_cases found with inFront | ⟨j, behind, rfl⟩
  · rcases append_cases inFront with old | ⟨j, new, rfl⟩
    · obtain ⟨less, rfl⟩ := run_cases old
      exact .inl ⟨by rw [Nat.zero_add], less⟩
    · obtain ⟨less, rfl⟩ := fresh_cases new
      rw [length_run]
      exact .inr (.inl ⟨rfl, by omega, by omega⟩)
  · obtain ⟨less, rfl⟩ := run_cases behind
    rw [List.length_append, length_fresh, length_run]
    exact .inr (.inr ⟨place + j, by omega, by omega, rfl, by omega⟩)

theorem run_succ (start length : Nat) :
    run start (length + 1) = run start length ++ [some (start + length)] := by
  rw [run, List.range'_1_concat, List.map_append]
  rfl

theorem chopped_succ (side start length : Nat) :
    chopped (side + 1) start length =
      chopped side start length ++
        if start ≤ side ∧ side < start + length then [] else [some side] := by
  rw [chopped, List.range_succ, List.filter_append, List.map_append]
  refine congrArg (_ ++ ·) ?_
  by_cases inBand : start ≤ side ∧ side < start + length
  · simp [inBand]
  · have outside : side < start ∨ start + length ≤ side := by omega
    simp [inBand, outside]

/-- Outside a band are the columns before it and the ones behind it. -/
theorem chopped_eq
    (side start length : Nat) :
    chopped side start length =
      run 0 (min start side) ++ run (start + length) (side - (start + length)) := by
  induction side with
  | zero => simp [chopped, run]
  | succ side inductionHypothesis =>
      rw [chopped_succ, inductionHypothesis]
      -- The last column is before the band, in it or behind it.
      by_cases before : side < start
      · have front : min start (side + 1) = min start side + 1 := by omega
        have none : side + 1 - (start + length) = 0 ∧ side - (start + length) = 0 := by omega
        have last : min start side = side := by omega
        rw [if_neg (by omega), front, run_succ, none.1, none.2, last, Nat.zero_add]
        simp [run]
      · have front : min start (side + 1) = min start side := by omega
        rw [front]
        by_cases behind : start + length ≤ side
        · have back : side + 1 - (start + length) = side - (start + length) + 1 := by omega
          have last : start + length + (side - (start + length)) = side := by omega
          rw [if_neg (by omega), back, run_succ, last, List.append_assoc]
        · have none : side + 1 - (start + length) = side - (start + length) := by omega
          rw [if_pos (by omega), none, List.append_nil]

theorem getElem?_run
    (start : Nat)
    (less : i < length) :
    (run start length)[i]? = some (some (start + i)) := by
  rw [run, List.getElem?_map, List.getElem?_range' less, Option.map_some, Nat.one_mul]

/-- Of a side with new columns inserted, the columns outside the band are the old ones. -/
theorem length_chopped_spliced
    (inside : place ≤ side) :
    (chopped (side + length) place length).length = side := by
  rw [chopped_eq, List.length_append, length_run, length_run]
  omega

theorem exists_chopped_spliced
    (length : Nat)
    (inside : place ≤ side)
    (less : i < side) :
    ∃ j, (chopped (side + length) place length)[i]? = some (some j) ∧
      (spliced side place length)[j]? = some (some i) := by
  have front : min place (side + length) = place := by omega
  have back : side + length - (place + length) = side - place := by omega
  rw [chopped_eq, front, back]
  by_cases before : i < place
  · refine ⟨i, ?_, ?_⟩
    · rw [List.getElem?_append_left (by rwa [length_run]), getElem?_run 0 before, Nat.zero_add]
    · rw [spliced, List.append_assoc, List.getElem?_append_left (by rwa [length_run]),
        getElem?_run 0 before, Nat.zero_add]
  · have behind : i - place < side - place := by omega
    refine ⟨i + length, ?_, ?_⟩
    · have place_eq : place + length + (i - place) = i + length := by omega
      rw [List.getElem?_append_right (by rw [length_run]; omega), length_run,
        getElem?_run _ behind, place_eq]
    · have index : i + length - (place + length) = i - place := by omega
      have old : place + (i - place) = i := by omega
      rw [spliced, List.getElem?_append_right (by simp; omega), List.length_append, length_run,
        length_fresh, index, getElem?_run _ behind, old]

end Origins

/-! ## Rasters -/

namespace Raster

/-- The color where a column and a row cross: drawn from the old one, or the color of what is
new. -/
def crossing (r : Raster) (draw : Color → Color) (fill : Color) : Option Nat → Option Nat → Color
  | some column, some row => draw (r.get column row)
  | _, _ => fill

/-- A raster whose columns and rows come from those of another. -/
structure IsLaidOut (r : Raster) (columns rows : Origins) (draw : Color → Color) (fill : Color)
    (out : Raster) : Prop where
  /-- There are as many columns as are listed. -/
  width : out.width = columns.length
  /-- There are as many rows as are listed. -/
  height : out.height = rows.length
  /-- Each pixel is the crossing of its column and its row. -/
  colors : ∀ {x y : Nat} {column row : Option Nat}, columns[x]? = some column →
    rows[y]? = some row → out.get x y = r.crossing draw fill column row

variable {r : Raster} {margin : Size} {rect : Rect}

theorem contains_of_getElem?
    {out : Raster}
    {columns rows : Origins}
    (width : out.width = columns.length)
    (height : out.height = rows.length)
    {x y : Nat}
    {column row : Option Nat}
    (across : columns[x]? = some column)
    (down : rows[y]? = some row) :
    out.size.Contains x y := by
  obtain ⟨columnLess, -⟩ := List.getElem?_eq_some_iff.mp across
  obtain ⟨rowLess, -⟩ := List.getElem?_eq_some_iff.mp down
  exact ⟨Nat.lt_of_lt_of_eq columnLess width.symm, Nat.lt_of_lt_of_eq rowLess height.symm⟩

/-- A raster of a function is laid out as listed when the function gives the crossings. -/
theorem ofFn_isLaidOut
    {size : Size}
    {f : Nat → Nat → Color}
    {columns rows : Origins}
    {draw : Color → Color}
    {fill : Color}
    (width : size.width.toNat = columns.length)
    (height : size.height.toNat = rows.length)
    (colors : ∀ {x y : Nat} {column row : Option Nat}, columns[x]? = some column →
      rows[y]? = some row → f x y = r.crossing draw fill column row) :
    r.IsLaidOut columns rows draw fill (ofFn size f) := by
  refine ⟨width, height, fun {x y column row} across down => ?_⟩
  have inside : size.Contains x y :=
    contains_of_getElem? (show (ofFn size f).width = _ from width) height across down
  rw [get_ofFn inside.1 inside.2, colors across down]

theorem toNat_add_of_lt
    {m n : UInt32}
    (fits : m.toNat + n.toNat < 2 ^ 32) :
    (m + n).toNat = m.toNat + n.toNat := by
  rw [UInt32.toNat_add, Nat.mod_eq_of_lt fits]

theorem toNat_twice
    {n : UInt32}
    (fits : 2 * n.toNat < 2 ^ 32) :
    (2 * n).toNat = 2 * n.toNat := by
  rw [UInt32.toNat_mul]
  exact Nat.mod_eq_of_lt fits

theorem toNat_shaved
    {side margin : UInt32}
    (fits : 2 * margin.toNat < 2 ^ 32)
    (left : ¬ side ≤ 2 * margin) :
    2 * margin.toNat ≤ side.toNat ∧ (side - 2 * margin).toNat = side.toNat - 2 * margin.toNat := by
  have double := toNat_twice fits
  rw [UInt32.le_iff_toNat_le, double] at left
  have inside : 2 * margin.toNat ≤ side.toNat := by omega
  refine ⟨inside, ?_⟩
  rw [UInt32.toNat_sub_of_le _ _ (UInt32.le_iff_toNat_le.mpr (by rwa [double])), double]

/-- A border whose size is in range has the raster between its margins. -/
theorem border_isLaidOut
    (across : r.width + 2 * margin.width.toNat < 2 ^ 32)
    (down : r.height + 2 * margin.height.toNat < 2 ^ 32)
    (color : Color)
    (compose : Compose) :
    r.IsLaidOut (.bordered r.width margin.width.toNat) (.bordered r.height margin.height.toNat)
      (Blend.pixel compose color) color (r.border margin color compose) := by
  have double := toNat_twice (n := margin.width) (by omega)
  have double' := toNat_twice (n := margin.height) (by omega)
  have width : (r.border margin color compose).width =
      (Origins.bordered r.width margin.width.toNat).length := by
    rw [Origins.length_bordered, ← double]
    exact toNat_add_of_lt (by rw [double]; exact across)
  have height : (r.border margin color compose).height =
      (Origins.bordered r.height margin.height.toNat).length := by
    rw [Origins.length_bordered, ← double']
    exact toNat_add_of_lt (by rw [double']; exact down)
  refine ⟨width, height, fun {x y column row} columnFound rowFound => ?_⟩
  have inside : (withMargin r.size margin).Contains x y :=
    contains_of_getElem? width height columnFound rowFound
  have onCanvas : (fill (withMargin r.size margin) color).size.Contains x y := inside
  rw [border, Raster.onCanvas, get_drawOnto _ _ _ _ onCanvas, toInt_wide, toInt_wide,
    get_fill color inside]
  rcases Origins.bordered_cases columnFound with ⟨rfl, beside⟩ | ⟨m, columnLess, rfl, rfl⟩
  · rw [get?_of_outside (.inl (by omega))]
    rfl
  rcases Origins.bordered_cases rowFound with ⟨rfl, beside⟩ | ⟨n, rowLess, rfl, rfl⟩
  · rw [get?_of_outside (.inr (by omega))]
    rfl
  · have old (a b : Nat) : ((a + b : Nat) : Int) - a = b := by omega
    rw [old, old, get?_eq, if_pos ⟨columnLess, rowLess⟩]
    rfl

/-- What is left between two margins of a raster. -/
theorem crop_isLaidOut
    (across : 2 * margin.width.toNat ≤ r.width)
    (down : 2 * margin.height.toNat ≤ r.height)
    {width height : UInt32}
    (width_eq : width.toNat = r.width - 2 * margin.width.toNat)
    (height_eq : height.toNat = r.height - 2 * margin.height.toNat)
    (fill : Color) :
    r.IsLaidOut (.shaved r.width margin.width.toNat) (.shaved r.height margin.height.toNat)
      id fill (r.crop margin.width margin.height width height) := by
  have whole : r.crop margin.width margin.height width height =
      ofFn ⟨width, height⟩ fun column row =>
        r.get (margin.width.toNat + column) (margin.height.toNat + row) := by
    obtain ⟨left, right⟩ := crop_side margin.width width r.size.width (by
      change _ ≤ r.width
      omega)
    obtain ⟨top, bottom⟩ := crop_side margin.height height r.size.height (by
      change _ ≤ r.height
      omega)
    rw [crop, left, right, top, bottom]
  rw [whole]
  refine ofFn_isLaidOut (by rw [Origins.length_shaved, ← width_eq])
    (by rw [Origins.length_shaved, ← height_eq]) fun {x y column row} columnFound rowFound => ?_
  obtain ⟨-, rfl⟩ := Origins.run_cases columnFound
  obtain ⟨-, rfl⟩ := Origins.run_cases rowFound
  rfl

/-- Colors that are all kept by a map stay where they are. -/
theorem IsLaidOut.map
    {out : Raster}
    {columns rows : Origins}
    {fill : Color}
    {f : Color → Color}
    (laidOut : r.IsLaidOut columns rows id fill out)
    (old : ∀ column ∈ columns, ∀ row ∈ rows,
      ∃ m n, column = some m ∧ row = some n ∧ r.size.Contains m n)
    (keeps : ∀ c ∈ r.pixels, f c = c) :
    r.IsLaidOut columns rows id fill (out.map f) := by
  refine ⟨laidOut.width, laidOut.height, fun {x y column row} columnFound rowFound => ?_⟩
  have inside := contains_of_getElem? laidOut.width laidOut.height columnFound rowFound
  obtain ⟨m, n, rfl, rfl, place⟩ := old _ (List.mem_of_getElem? columnFound) _
    (List.mem_of_getElem? rowFound)
  rw [get_map f inside, laidOut.colors columnFound rowFound]
  exact keeps _ (get_mem place)

/-- Columns and rows that are selected, in order. -/
theorem select_isLaidOut
    {columns rows : Array Nat}
    (across : columns.size < 2 ^ 32)
    (down : rows.size < 2 ^ 32)
    (fill : Color) :
    r.IsLaidOut (columns.toList.map some) (rows.toList.map some) id fill
      (r.select columns rows) := by
  refine ofFn_isLaidOut ?_ ?_ fun {x y column row} columnFound rowFound => ?_
  · rw [List.length_map, Array.length_toList]
    exact UInt32.toNat_ofNat_of_lt' across
  · rw [List.length_map, Array.length_toList]
    exact UInt32.toNat_ofNat_of_lt' down
  · rw [List.getElem?_map, Option.map_eq_some_iff] at columnFound rowFound
    obtain ⟨m, columnFound, rfl⟩ := columnFound
    obtain ⟨n, rowFound, rfl⟩ := rowFound
    rw [Array.getElem?_toList] at columnFound rowFound
    rw [Array.getD_eq_getD_getElem?, Array.getD_eq_getD_getElem?, columnFound, rowFound]
    rfl

/-- The columns that are kept beside a band whose end is in range. -/
theorem outside_eq_chopped
    {start : Int64}
    {length : UInt32}
    (fits : start.toInt.toNat + length.toNat < 2 ^ 32)
    (side : Nat) :
    (outside side (narrow (max start 0)) length).toList.map some =
      Origins.chopped side start.toInt.toNat length.toNat := by
  have raised : (max start 0).toInt = start.toInt.toNat := by
    rw [toInt_max, Int64.toInt_zero]
    omega
  have first : (narrow (max start 0)).toNat = start.toInt.toNat := by
    have cut := toNat_narrow (n := max start 0) (by omega) (by omega)
    omega
  have last := toNat_add_of_lt (m := narrow (max start 0)) (n := length) (by omega)
  rw [outside, List.toList_toArray, Origins.chopped, last, first]

theorem size_outside_le
    (side : Nat)
    (start length : UInt32) :
    (outside side start length).size ≤ side := by
  rw [outside, List.size_toArray]
  exact (List.length_filter_le _ _).trans_eq List.length_range

/-- A chop of a band whose ends are in range keeps the columns and rows beside it; nothing is left
when there are none. -/
theorem chop?_cases
    (across : rect.x.toInt.toNat + rect.width.toNat < 2 ^ 32)
    (down : rect.y.toInt.toNat + rect.height.toNat < 2 ^ 32)
    (fill : Color) :
    let columns := Origins.chopped r.width rect.x.toInt.toNat rect.width.toNat
    let rows := Origins.chopped r.height rect.y.toInt.toNat rect.height.toNat
    (columns = [] ∨ rows = []) ∧ r.chop? rect = none ∨
      ¬ (columns = [] ∨ rows = []) ∧
        ∃ out, r.chop? rect = some out ∧ r.IsLaidOut columns rows id fill out := by
  intro columns rows
  have columns_eq : _ = columns := outside_eq_chopped across r.width
  have rows_eq : _ = rows := outside_eq_chopped down r.height
  have columnsRange := size_outside_le r.width (narrow (max rect.x 0)) rect.width
  have rowsRange := size_outside_le r.height (narrow (max rect.y 0)) rect.height
  have width : r.width < 2 ^ 32 := r.size.width.toNat_lt
  have height : r.height < 2 ^ 32 := r.size.height.toNat_lt
  unfold chop?
  generalize outside r.width (narrow (max rect.x 0)) rect.width = keptColumns at *
  generalize outside r.height (narrow (max rect.y 0)) rect.height = keptRows at *
  have isEmpty_iff : (keptColumns.isEmpty || keptRows.isEmpty) = true ↔
      columns = [] ∨ rows = [] := by
    rw [← columns_eq, ← rows_eq, List.map_eq_nil_iff, List.map_eq_nil_iff, Array.toList_eq_nil_iff,
      Array.toList_eq_nil_iff, Bool.or_eq_true, Array.isEmpty_iff, Array.isEmpty_iff]
  by_cases nothing : columns = [] ∨ rows = []
  · exact .inl ⟨nothing, if_pos (isEmpty_iff.mpr nothing)⟩
  · refine .inr ⟨nothing, _, if_neg (mt isEmpty_iff.mp nothing), ?_⟩
    rw [← columns_eq, ← rows_eq]
    exact select_isLaidOut (by omega) (by omega) fill

/-- Where a splice inserts its band: a place outside is moved to the edge. -/
theorem toNat_spliced_place
    (start : Int64)
    (side : UInt32) :
    (narrow (max 0 (min start (wide side)))).toNat = min start.toInt.toNat side.toNat := by
  have less := side.toNat_lt
  have moved : (max 0 (min start (wide side))).toInt =
      (min start.toInt.toNat side.toNat : Nat) := by
    rw [toInt_max, toInt_min, toInt_wide, Int64.toInt_zero]
    omega
  have cut := toNat_narrow (n := max 0 (min start (wide side))) (by omega) (by omega)
  omega

/-- A column of a splice whose size is in range lies in the band, or it comes from an old one. -/
theorem spliced_column_cases
    {start : Int64}
    {side length left : UInt32}
    (fits : side.toNat + length.toNat < 2 ^ 32)
    (left_eq : left.toNat = min start.toInt.toNat side.toNat)
    {i : Nat}
    {origin : Option Nat}
    (found : (Origins.spliced side.toNat (min start.toInt.toNat side.toNat) length.toNat)[i]? =
      some origin) :
    (left ≤ UInt32.ofNat i ∧ UInt32.ofNat i < left + length) ∧ origin = none ∨
      ¬ (left ≤ UInt32.ofNat i ∧ UInt32.ofNat i < left + length) ∧
        origin = some (if left + length ≤ UInt32.ofNat i then UInt32.ofNat i - length
          else UInt32.ofNat i).toNat := by
  have less : i < side.toNat + length.toNat := by
    have bound := (List.getElem?_eq_some_iff.mp found).1
    rwa [Origins.length_spliced (Nat.min_le_right _ _)] at bound
  have place : (UInt32.ofNat i).toNat = i :=
    UInt32.toNat_ofNat_of_lt' (show i < 2 ^ 32 by omega)
  have right : (left + length).toNat = left.toNat + length.toNat := toNat_add_of_lt (by omega)
  simp only [UInt32.le_iff_toNat_le, UInt32.lt_iff_toNat_lt, place, right]
  rcases Origins.spliced_cases found with
    ⟨rfl, before⟩ | ⟨rfl, first, last⟩ | ⟨n, behind, old, rfl, rfl⟩
  · refine .inr ⟨by omega, ?_⟩
    rw [if_neg (by omega), place]
  · exact .inl ⟨by omega, rfl⟩
  · refine .inr ⟨by omega, ?_⟩
    have noBorrow : length ≤ UInt32.ofNat (n + length.toNat) := by
      rw [UInt32.le_iff_toNat_le, place]
      omega
    rw [if_pos (by omega), UInt32.toNat_sub_of_le _ _ noBorrow, place, Nat.add_sub_cancel]

/-- A splice whose size is in range has its band between the old columns and rows. -/
theorem splice_isLaidOut
    (across : r.width + rect.width.toNat < 2 ^ 32)
    (down : r.height + rect.height.toNat < 2 ^ 32)
    (background : Color) :
    r.IsLaidOut (.spliced r.width (min rect.x.toInt.toNat r.width) rect.width.toNat)
      (.spliced r.height (min rect.y.toInt.toNat r.height) rect.height.toNat) id background
      (r.splice rect background) := by
  unfold splice
  extract_lets place left top right bottom
  have left_eq := toNat_spliced_place rect.x r.size.width
  have top_eq := toNat_spliced_place rect.y r.size.height
  refine ofFn_isLaidOut ?_ ?_ fun {x y column row} columnFound rowFound => ?_
  · rw [Origins.length_spliced (Nat.min_le_right _ _)]
    exact toNat_add_of_lt across
  · rw [Origins.length_spliced (Nat.min_le_right _ _)]
    exact toNat_add_of_lt down
  · dsimp only
    simp only [Bool.or_eq_true, Bool.and_eq_true, decide_eq_true_eq]
    rcases spliced_column_cases across left_eq columnFound with ⟨inBand, rfl⟩ | ⟨beside, rfl⟩
    · rw [if_pos (.inl inBand)]
      rfl
    rcases spliced_column_cases down top_eq rowFound with ⟨inBand, rfl⟩ | ⟨beside', rfl⟩
    · rw [if_pos (.inr inBand)]
      rfl
    · rw [if_neg (not_or.mpr ⟨beside, beside'⟩)]
      rfl

/-- A chop takes away what a splice has inserted. -/
theorem chop?_splice
    (nonempty : 0 < r.width ∧ 0 < r.height)
    (across : r.width + rect.width.toNat < 2 ^ 32)
    (down : r.height + rect.height.toNat < 2 ^ 32)
    (left : rect.x.toInt ≤ r.width)
    (top : rect.y.toInt ≤ r.height)
    (background : Color) :
    (r.splice rect background).chop? rect = some r := by
  have inColumns : rect.x.toInt.toNat ≤ r.width := by omega
  have inRows : rect.y.toInt.toNat ≤ r.height := by omega
  have inserted := splice_isLaidOut across down background
  rw [Nat.min_eq_left inColumns, Nat.min_eq_left inRows] at inserted
  generalize r.splice rect background = spliced at inserted
  have width := inserted.width
  have height := inserted.height
  rw [Origins.length_spliced inColumns] at width
  rw [Origins.length_spliced inRows] at height
  have columns : (Origins.chopped spliced.width rect.x.toInt.toNat rect.width.toNat).length =
      r.width := by rw [width, Origins.length_chopped_spliced inColumns]
  have rows : (Origins.chopped spliced.height rect.y.toInt.toNat rect.height.toNat).length =
      r.height := by rw [height, Origins.length_chopped_spliced inRows]
  have right : rect.x.toInt.toNat + rect.width.toNat < 2 ^ 32 := by omega
  have bottom : rect.y.toInt.toNat + rect.height.toNat < 2 ^ 32 := by omega
  rcases chop?_cases (r := spliced) right bottom background with
    ⟨nothing, -⟩ | ⟨-, out, chopped, kept⟩
  · rcases nothing with none | none
    · rw [none] at columns
      exact absurd columns (Nat.ne_of_lt nonempty.1)
    · rw [none] at rows
      exact absurd rows (Nat.ne_of_lt nonempty.2)
  · have width' : out.width = r.width := kept.width.trans columns
    have height' : out.height = r.height := kept.height.trans rows
    rw [chopped, Option.some.injEq]
    refine ext_get (size_eq_of_sides width' height') fun x y inside => ?_
    obtain ⟨m, column, column'⟩ := Origins.exists_chopped_spliced rect.width.toNat inColumns
      (show x < r.width by rw [← width']; exact inside.1)
    obtain ⟨n, row, row'⟩ := Origins.exists_chopped_spliced rect.height.toNat inRows
      (show y < r.height by rw [← height']; exact inside.2)
    rw [← width] at column
    rw [← height] at row
    calc out.get x y = spliced.get m n := kept.colors column row
      _ = r.get x y := inserted.colors column' row'

end Raster

/-! ## Images -/

/-- A shave whose margins are in range keeps what is between them, and it is refused when that is
nothing. -/
theorem Image.shave?_cases
    (image : Image)
    {margin : Size}
    (across : 2 * margin.width.toNat < 2 ^ 32)
    (down : 2 * margin.height.toNat < 2 ^ 32)
    (fill : Color) :
    let columns := Origins.shaved image.raster.width margin.width.toNat
    let rows := Origins.shaved image.raster.height margin.height.toNat
    (columns = [] ∨ rows = []) ∧ image.shave? margin = none ∨
      ¬ (columns = [] ∨ rows = []) ∧
        ∃ bitmap, image.shave? margin = some (image.withBitmap bitmap) ∧
          image.raster.IsLaidOut columns rows id fill bitmap.raster := by
  intro columns rows
  have double := Raster.toNat_twice across
  have double' := Raster.toNat_twice down
  have nothing_iff : image.size.width ≤ 2 * margin.width ∨ image.size.height ≤ 2 * margin.height ↔
      columns = [] ∨ rows = [] := by
    rw [← List.length_eq_zero_iff, ← List.length_eq_zero_iff, Origins.length_shaved,
      Origins.length_shaved, Nat.sub_eq_zero_iff_le, Nat.sub_eq_zero_iff_le,
      UInt32.le_iff_toNat_le, UInt32.le_iff_toNat_le, double, double']
    rfl
  unfold shave?
  by_cases nothing : columns = [] ∨ rows = []
  · exact .inl ⟨nothing, if_pos (nothing_iff.mpr nothing)⟩
  · have some := mt nothing_iff.mp nothing
    obtain ⟨columnsLeft, rowsLeft⟩ := not_or.mp some
    obtain ⟨columnsFit, width⟩ := Raster.toNat_shaved across columnsLeft
    obtain ⟨rowsFit, height⟩ := Raster.toNat_shaved down rowsLeft
    have cropped := Raster.crop_isLaidOut (r := image.raster) columnsFit rowsFit width height fill
    refine .inr ⟨nothing, _, if_neg some, cropped.map ?_ image.bitmap.conforms⟩
    intro column columnOld row rowOld
    obtain ⟨m, rfl, columnLess⟩ := Origins.exists_of_mem_shaved columnOld
    obtain ⟨n, rfl, rowLess⟩ := Origins.exists_of_mem_shaved rowOld
    exact ⟨m, n, rfl, rfl, columnLess, rowLess⟩

/-! ## Splice and chop -/

namespace PixelEngine

theorem transform_chop
    (image : Image)
    (rect : Rect) :
    transform image (.chop rect) =
      match image.raster.chop? rect with
      | some raster => .ok (.replaced (image.withRaster raster))
      | none => missed :=
  rfl

theorem transform_shave
    (image : Image)
    (margin : Size) :
    transform image (.shave margin) =
      match image.shave? margin with
      | some shaved => .ok (.replaced shaved)
      | none => missed :=
  rfl

/-- The chop of a region takes away the columns and rows that the splice of that region has
inserted: an image that has pixels is what it was. -/
theorem chop_undoes_splice
    {image : Image}
    (nonempty : 0 < image.size.width ∧ 0 < image.size.height)
    {region : Rect}
    (across : image.size.width.toNat + region.width.toNat < 2 ^ 32)
    (down : image.size.height.toNat + region.height.toNat < 2 ^ 32)
    (left : region.x.toInt ≤ image.size.width.toNat)
    (top : region.y.toInt ≤ image.size.height.toNat)
    (background : Color) :
    ∃ spliced restored,
      transform image (.splice region background) = .ok (.replaced spliced) ∧
      transform spliced (.chop region) = .ok (.replaced restored) ∧
      restored.size = image.size ∧ restored.raster = image.raster := by
  have positive : 0 < image.raster.width ∧ 0 < image.raster.height :=
    ⟨UInt32.lt_iff_toNat_lt.mp nonempty.1, UInt32.lt_iff_toNat_lt.mp nonempty.2⟩
  let spliced := image.withRaster (image.raster.splice region background)
  have chopped : spliced.raster.chop? region = some image.raster :=
    Raster.chop?_splice positive across down left top background
  refine ⟨spliced, spliced.withRaster image.raster, rfl, ?_, rfl, rfl⟩
  rw [transform_chop, chopped]

/-- A cross of a column and two rows is inserted into an image and taken away. -/
theorem chop_undoes_splice_of_cross :
    let image : Image :=
      { bitmap := Bitmap.rgba (Raster.ofFn ⟨3, 2⟩ fun x y =>
          ⟨UInt8.ofNat (80 * x), UInt8.ofNat (200 * y), 7, 90⟩) }
    let region : Rect := ⟨3, -4, 1, 2⟩
    (0 < image.size.width ∧ 0 < image.size.height) ∧
      image.size.width.toNat + region.width.toNat < 2 ^ 32 ∧
      image.size.height.toNat + region.height.toNat < 2 ^ 32 ∧
      region.x.toInt ≤ image.size.width.toNat ∧ region.y.toInt ≤ image.size.height.toNat ∧
      ∃ spliced restored,
        transform image (.splice region Color.black) = .ok (.replaced spliced) ∧
        transform spliced (.chop region) = .ok (.replaced restored) ∧
        restored.size = image.size ∧ restored.raster = image.raster :=
  ⟨by decide, by decide, by decide, by decide, by decide,
    chop_undoes_splice (by decide) (by decide) (by decide) (by decide) (by decide) Color.black⟩

/-- An image without columns gets one, and the chop that would take it away is refused, because
nothing would be left. -/
theorem only_column_not_chopped :
    let image : Image := { bitmap := Bitmap.rgba (Raster.fill ⟨0, 1⟩ Color.white) }
    let region : Rect := ⟨0, 0, 1, 0⟩
    image.size.width.toNat + region.width.toNat < 2 ^ 32 ∧
      image.size.height.toNat + region.height.toNat < 2 ^ 32 ∧
      region.x.toInt ≤ image.size.width.toNat ∧ region.y.toInt ≤ image.size.height.toNat ∧
      ¬ ∃ spliced restored,
        transform image (.splice region Color.white) = .ok (.replaced spliced) ∧
        transform spliced (.chop region) = .ok (.replaced restored) ∧
        restored.size = image.size ∧ restored.raster = image.raster := by
  refine ⟨by decide, by decide, by decide, by decide, ?_⟩
  rintro ⟨spliced, restored, inserted, chopped, -⟩
  cases inserted
  cases chopped

end PixelEngine
end Darkroom
