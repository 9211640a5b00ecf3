import Darkroom.Engine.Pixel
import Darkroom.Proofs.Number.Turns
import Darkroom.Proofs.Pixels.Raster
import Mathlib

/-!
# The symmetries of a rectangle of pixels

A quarter turn and the exchange of left and right make up all eight ways to lay a raster onto its
own shape or the one that lies on its side.  They multiply as the symmetries of the square do, so
that what several of them in a row come to is found by calculation in that group.  A bitmap is moved
in its layout without a color being cut down, and an image that is turned by a multiple of ninety
degrees is moved by as many quarter turns.
-/

namespace Darkroom
namespace Raster

variable {r : Raster} {x y : Nat}

/-! ## Where the colors come from -/

theorem get_flip
    (across : x < r.width)
    (down : y < r.height) :
    r.flip.get x y = r.get x (r.height - 1 - y) :=
  get_ofFn across down

theorem get_flop
    (across : x < r.width)
    (down : y < r.height) :
    r.flop.get x y = r.get (r.width - 1 - x) y :=
  get_ofFn across down

theorem get_quarterTurn
    (across : x < r.height)
    (down : y < r.width) :
    r.quarterTurn.get x y = r.get y (r.height - 1 - x) :=
  get_ofFn (show x < r.size.swapped.width.toNat from across) down

theorem get_halfTurn
    (across : x < r.width)
    (down : y < r.height) :
    r.halfTurn.get x y = r.get (r.width - 1 - x) (r.height - 1 - y) :=
  get_ofFn across down

theorem get_quarterTurnBack
    (across : x < r.height)
    (down : y < r.width) :
    r.quarterTurnBack.get x y = r.get (r.width - 1 - y) x :=
  get_ofFn (show x < r.size.swapped.width.toNat from across) down

/-! ## Two moves that make up the others -/

theorem flop_flop
    (r : Raster) :
    r.flop.flop = r := by
  refine ext_get rfl fun x y inside => ?_
  obtain ⟨across, down⟩ : x < r.width ∧ y < r.height := inside
  calc r.flop.flop.get x y
      = r.flop.get (r.width - 1 - x) y := get_flop (r := r.flop) across down
    _ = r.get (r.width - 1 - (r.width - 1 - x)) y := get_flop (by omega) down
    _ = r.get x y := by congr 1; omega

theorem flop_halfTurn
    (r : Raster) :
    r.halfTurn.flop = r.flip := by
  refine ext_get rfl fun x y inside => ?_
  obtain ⟨across, down⟩ : x < r.width ∧ y < r.height := inside
  calc r.halfTurn.flop.get x y
      = r.halfTurn.get (r.width - 1 - x) y := get_flop (r := r.halfTurn) across down
    _ = r.get (r.width - 1 - (r.width - 1 - x)) (r.height - 1 - y) :=
        get_halfTurn (by omega) down
    _ = r.get x (r.height - 1 - y) := by congr 1; omega
    _ = r.flip.get x y := (get_flip across down).symm

theorem quarterTurn_quarterTurn
    (r : Raster) :
    r.quarterTurn.quarterTurn = r.halfTurn := by
  refine ext_get rfl fun x y inside => ?_
  obtain ⟨across, down⟩ : x < r.width ∧ y < r.height := inside
  calc r.quarterTurn.quarterTurn.get x y
      = r.quarterTurn.get y (r.width - 1 - x) := get_quarterTurn (r := r.quarterTurn) across down
    _ = r.get (r.width - 1 - x) (r.height - 1 - y) := get_quarterTurn down (by omega)
    _ = r.halfTurn.get x y := (get_halfTurn across down).symm

theorem quarterTurn_halfTurn
    (r : Raster) :
    r.halfTurn.quarterTurn = r.quarterTurnBack := by
  refine ext_get rfl fun x y inside => ?_
  obtain ⟨across, down⟩ : x < r.height ∧ y < r.width := inside
  calc r.halfTurn.quarterTurn.get x y
      = r.halfTurn.get y (r.height - 1 - x) := get_quarterTurn (r := r.halfTurn) across down
    _ = r.get (r.width - 1 - y) (r.height - 1 - (r.height - 1 - x)) :=
        get_halfTurn down (by omega)
    _ = r.get (r.width - 1 - y) x := by congr 1; omega
    _ = r.quarterTurnBack.get x y := (get_quarterTurnBack across down).symm

theorem quarterTurn_quarterTurnBack
    (r : Raster) :
    r.quarterTurnBack.quarterTurn = r := by
  refine ext_get rfl fun x y inside => ?_
  obtain ⟨across, down⟩ : x < r.width ∧ y < r.height := inside
  calc r.quarterTurnBack.quarterTurn.get x y
      = r.quarterTurnBack.get y (r.width - 1 - x) :=
        get_quarterTurn (r := r.quarterTurnBack) across down
    _ = r.get (r.width - 1 - (r.width - 1 - x)) y := get_quarterTurnBack down (by omega)
    _ = r.get x y := by congr 1; omega

/-- A mirror reverses the sense of a turn. -/
theorem quarterTurn_flop
    (r : Raster) :
    r.flop.quarterTurn = r.quarterTurnBack.flop := by
  refine ext_get rfl fun x y inside => ?_
  obtain ⟨across, down⟩ : x < r.height ∧ y < r.width := inside
  calc r.flop.quarterTurn.get x y
      = r.flop.get y (r.height - 1 - x) := get_quarterTurn (r := r.flop) across down
    _ = r.get (r.width - 1 - y) (r.height - 1 - x) := get_flop down (by omega)
    _ = r.quarterTurnBack.get (r.height - 1 - x) y := (get_quarterTurnBack (by omega) down).symm
    _ = r.quarterTurnBack.flop.get x y := (get_flop (r := r.quarterTurnBack) across down).symm

/-! ## The group -/

/-- The ways to lay a square onto itself: turns by quarters, and turns followed by the exchange of
left and right. -/
abbrev Symmetry := DihedralGroup 4

/-- The raster moved by a symmetry. -/
def moved : Symmetry → Raster → Raster
  | .r turns => quarterTurn^[turns.val]
  | .sr turns => flop ∘ quarterTurn^[turns.val]

theorem quarterTurn_four : quarterTurn^[4] = id := by
  funext r
  change r.quarterTurn.quarterTurn.quarterTurn.quarterTurn = r
  rw [quarterTurn_quarterTurn r, quarterTurn_halfTurn, quarterTurn_quarterTurnBack]

theorem quarterTurn_mod
    (n : Nat) :
    quarterTurn^[n % 4] = quarterTurn^[n] := by
  conv_rhs => rw [← Nat.div_add_mod n 4, Function.iterate_add, Function.iterate_mul,
    quarterTurn_four, Function.iterate_id, Function.id_comp]

theorem quarterTurn_add
    (i j : ZMod 4) :
    quarterTurn^[(i + j).val] = quarterTurn^[i.val] ∘ quarterTurn^[j.val] := by
  rw [ZMod.val_add, quarterTurn_mod, Function.iterate_add]

theorem quarterTurn_flop_comp : quarterTurn ∘ flop = flop ∘ quarterTurn^[3] := by
  funext r
  simp only [Function.iterate_succ, Function.iterate_zero, Function.comp_apply, id_eq,
    quarterTurn_quarterTurn, quarterTurn_halfTurn, quarterTurn_flop]

/-- Turns before a mirror are the opposite turns after it. -/
theorem quarterTurn_comp_flop
    (i : ZMod 4) :
    quarterTurn^[i.val] ∘ flop = flop ∘ quarterTurn^[(-i).val] := by
  have iterated (n : Nat) : quarterTurn^[n] ∘ flop = flop ∘ quarterTurn^[3 * n] := by
    induction n with
    | zero => rfl
    | succ n inductionHypothesis =>
        rw [Function.iterate_succ', Function.comp_assoc, inductionHypothesis, ← Function.comp_assoc,
          quarterTurn_flop_comp, Function.comp_assoc, ← Function.iterate_add, Nat.mul_succ,
          Nat.add_comm]
  have opposite : (-i).val = 3 * i.val % 4 := by revert i; decide
  rw [iterated, opposite, quarterTurn_mod]

theorem flop_comp_flop : flop ∘ flop = id :=
  funext flop_flop

@[simp] theorem moved_one : moved 1 = id :=
  rfl

/-- One symmetry after another is their product. -/
theorem moved_mul
    (g h : Symmetry) :
    moved (g * h) = moved g ∘ moved h := by
  cases g with
  | r i =>
      cases h with
      | r j => exact quarterTurn_add i j
      | sr j =>
          rw [DihedralGroup.r_mul_sr, moved, moved, moved, ← Function.comp_assoc,
            quarterTurn_comp_flop, Function.comp_assoc, ← quarterTurn_add, sub_eq_neg_add]
  | sr i =>
      cases h with
      | r j =>
          rw [DihedralGroup.sr_mul_r, moved, moved, moved, quarterTurn_add, Function.comp_assoc]
      | sr j =>
          rw [DihedralGroup.sr_mul_sr, moved, moved, moved, Function.comp_assoc,
            ← Function.comp_assoc (quarterTurn^[i.val]), quarterTurn_comp_flop,
            Function.comp_assoc, ← Function.comp_assoc flop flop, flop_comp_flop,
            Function.id_comp, ← quarterTurn_add, sub_eq_neg_add]

/-- Four different colors in a square tell the symmetries apart. -/
theorem moved_injective : Function.Injective moved := by
  let square := ofFn ⟨2, 2⟩ fun x y => Color.gray (.ofNat (x + 2 * y))
  have apart : ∀ g h, (moved g square).pixels = (moved h square).pixels → g = h := by
    decide
  intro g h same
  exact apart g h (by rw [same])

/-! ## Its elements by name -/

theorem quarterTurn_eq_moved : quarterTurn = moved (.r 1) :=
  rfl

theorem halfTurn_eq_moved : halfTurn = moved (.r 2) :=
  funext fun r => (quarterTurn_quarterTurn r).symm

theorem quarterTurnBack_eq_moved : quarterTurnBack = moved (.r 3) := by
  funext r
  rw [← quarterTurn_halfTurn, ← quarterTurn_quarterTurn]
  rfl

theorem flop_eq_moved : flop = moved (.sr 0) :=
  rfl

theorem transpose_eq_moved : transpose = moved (.sr 1) :=
  rfl

theorem flip_eq_moved : flip = moved (.sr 2) := by
  funext r
  rw [← flop_halfTurn, halfTurn_eq_moved]
  rfl

theorem transverse_eq_moved : transverse = moved (.sr 3) := by
  funext r
  rw [transverse, quarterTurnBack_eq_moved]
  rfl

/-! ## Rows and columns exchanged -/

theorem size_transpose
    (r : Raster) :
    r.transpose.size = r.size.swapped :=
  rfl

theorem size_transverse
    (r : Raster) :
    r.transverse.size = r.size.swapped :=
  rfl

/-- A place and the one it is sent to, both inside or both outside. -/
theorem get?_of_sent
    {s : Raster}
    {x y x' y' : Int}
    (range : (0 ≤ x ∧ x < r.width ∧ 0 ≤ y ∧ y < r.height) ↔
      (0 ≤ x' ∧ x' < s.width ∧ 0 ≤ y' ∧ y' < s.height))
    (same : 0 ≤ x ∧ x < r.width ∧ 0 ≤ y ∧ y < r.height →
      s.get x'.toNat y'.toNat = r.get x.toNat y.toNat) :
    s.get? x' y' = r.get? x y := by
  unfold get?
  by_cases inside : 0 ≤ x ∧ x < r.width ∧ 0 ≤ y ∧ y < r.height
  · rw [if_pos inside, if_pos (range.mp inside), same inside]
  · rw [if_neg inside, if_neg (mt range.mpr inside)]

/-- Rows become columns. -/
theorem get?_transpose
    (r : Raster)
    (x y : Int) :
    r.transpose.get? y x = r.get? x y := by
  have sides : r.transpose.width = r.height ∧ r.transpose.height = r.width := ⟨rfl, rfl⟩
  refine get?_of_sent (by omega) fun inside => ?_
  calc r.transpose.get y.toNat x.toNat
      = r.quarterTurn.get (r.height - 1 - y.toNat) x.toNat :=
        get_flop (r := r.quarterTurn) (by change _ < r.height; omega) (by change _ < r.width; omega)
    _ = r.get x.toNat (r.height - 1 - (r.height - 1 - y.toNat)) :=
        get_quarterTurn (by omega) (by omega)
    _ = r.get x.toNat y.toNat := by congr 1; omega

/-- Rows become columns, from the other corner. -/
theorem get?_transverse
    (r : Raster)
    (x y : Int) :
    r.transverse.get? (r.height - 1 - y) (r.width - 1 - x) = r.get? x y := by
  have sides : r.transverse.width = r.height ∧ r.transverse.height = r.width := ⟨rfl, rfl⟩
  refine get?_of_sent (by omega) fun inside => ?_
  have column : ((r.height : Int) - 1 - y).toNat = r.height - 1 - y.toNat := by omega
  have row : ((r.width : Int) - 1 - x).toNat = r.width - 1 - x.toNat := by omega
  rw [column, row]
  calc r.transverse.get (r.height - 1 - y.toNat) (r.width - 1 - x.toNat)
      = r.quarterTurnBack.get (r.height - 1 - (r.height - 1 - y.toNat)) (r.width - 1 - x.toNat) :=
        get_flop (r := r.quarterTurnBack) (by change _ < r.height; omega)
          (by change _ < r.width; omega)
    _ = r.get (r.width - 1 - (r.width - 1 - x.toNat)) (r.height - 1 - (r.height - 1 - y.toNat)) :=
        get_quarterTurnBack (by omega) (by omega)
    _ = r.get x.toNat y.toNat := by congr 1 <;> omega

/-! ## Colors changed on the way -/

theorem flop_map
    (f : Color → Color)
    (r : Raster) :
    (r.map f).flop = r.flop.map f := by
  refine ext_get rfl fun x y inside => ?_
  obtain ⟨across, down⟩ : x < r.width ∧ y < r.height := inside
  calc (r.map f).flop.get x y
      = (r.map f).get (r.width - 1 - x) y := get_flop (r := r.map f) across down
    _ = f (r.get (r.width - 1 - x) y) :=
        get_map f ⟨show _ < r.width by omega, down⟩
    _ = f (r.flop.get x y) := by rw [get_flop across down]
    _ = (r.flop.map f).get x y := (get_map (r := r.flop) f ⟨across, down⟩).symm

theorem quarterTurn_map
    (f : Color → Color)
    (r : Raster) :
    (r.map f).quarterTurn = r.quarterTurn.map f := by
  refine ext_get rfl fun x y inside => ?_
  obtain ⟨across, down⟩ : x < r.height ∧ y < r.width := inside
  calc (r.map f).quarterTurn.get x y
      = (r.map f).get y (r.height - 1 - x) := get_quarterTurn (r := r.map f) across down
    _ = f (r.get y (r.height - 1 - x)) :=
        get_map f ⟨down, show _ < r.height by omega⟩
    _ = f (r.quarterTurn.get x y) := by rw [get_quarterTurn across down]
    _ = (r.quarterTurn.map f).get x y := (get_map (r := r.quarterTurn) f ⟨across, down⟩).symm

/-- A symmetry moves colors and does not look at them. -/
theorem moved_map
    (f : Color → Color)
    (g : Symmetry)
    (r : Raster) :
    moved g (r.map f) = (moved g r).map f := by
  have turned (n : Nat) : quarterTurn^[n] (r.map f) = (quarterTurn^[n] r).map f :=
    (show Function.Commute quarterTurn (map f) from quarterTurn_map f).iterate_left n r
  cases g with
  | r i => exact turned i.val
  | sr i =>
      change (quarterTurn^[i.val] (r.map f)).flop = _
      rw [turned, flop_map]
      rfl

end Raster

/-! ## Bitmaps -/

namespace Bitmap

/-- Two bitmaps in one layout with the same raster are the same. -/
theorem ext_raster
    {b c : Bitmap}
    (layouts : b.layout = c.layout)
    (rasters : b.raster = c.raster) :
    b = c := by
  cases b
  cases c
  cases layouts
  cases rasters
  rfl

/-- The bitmap moved by a symmetry, in its layout. -/
def moved (g : Raster.Symmetry) (b : Bitmap) : Bitmap :=
  b.mapRaster (Raster.moved g)

@[simp] theorem layout_moved
    (g : Raster.Symmetry)
    (b : Bitmap) :
    (b.moved g).layout = b.layout :=
  rfl

/-- Colors that fit a layout fit it wherever they are moved. -/
@[simp] theorem raster_moved
    (g : Raster.Symmetry)
    (b : Bitmap) :
    (b.moved g).raster = Raster.moved g b.raster :=
  calc (b.moved g).raster
      = (Raster.moved g b.raster).map b.layout.restrict := rfl
    _ = Raster.moved g (b.raster.map b.layout.restrict) := (Raster.moved_map _ g _).symm
    _ = Raster.moved g b.raster := by rw [b.map_restrict]

@[simp] theorem moved_one
    (b : Bitmap) :
    b.moved 1 = b :=
  ext_raster rfl (raster_moved 1 b)

/-- One symmetry after another is their product. -/
theorem moved_mul
    (g h : Raster.Symmetry)
    (b : Bitmap) :
    b.moved (g * h) = (b.moved h).moved g := by
  refine ext_raster rfl ?_
  rw [raster_moved, raster_moved, raster_moved, Raster.moved_mul]
  rfl

end Bitmap

/-! ## Turns by an angle -/

open Binary in
/-- An image turned by so many times ninety degrees is moved by as many quarter turns. -/
theorem Image.rotate_bitmap
    {degrees : Float}
    {turns : Int}
    (value : HasValue degrees (90 * turns))
    (image : Image)
    (background : Color) :
    (image.rotate degrees background).bitmap = image.bitmap.moved (.r turns) := by
  have still : image.bitmap.moved (.r 0) = image.bitmap := image.bitmap.moved_one
  have byQuarter : ∀ i : ZMod 4, i = 0 ∨ i = 1 ∨ i = 2 ∨ i = 3 := by decide
  unfold rotate
  dsimp only
  rcases positiveRemainder_fullTurn value with angle | ⟨full, angle⟩
  · rw [angle]
    rcases byQuarter turns with same | same | same | same <;> rw [same]
    · rw [if_pos (show (quarters (0 : ZMod 4).val == 0.0) = true by decide)]
      exact still.symm
    · rw [if_neg (show ¬ (quarters (1 : ZMod 4).val == 0.0) = true by decide),
        if_pos (show (quarters (1 : ZMod 4).val == 90.0) = true by decide)]
      rfl
    · rw [if_neg (show ¬ (quarters (2 : ZMod 4).val == 0.0) = true by decide),
        if_neg (show ¬ (quarters (2 : ZMod 4).val == 90.0) = true by decide),
        if_pos (show (quarters (2 : ZMod 4).val == 180.0) = true by decide),
        Raster.halfTurn_eq_moved]
      rfl
    · rw [if_neg (show ¬ (quarters (3 : ZMod 4).val == 0.0) = true by decide),
        if_neg (show ¬ (quarters (3 : ZMod 4).val == 90.0) = true by decide),
        if_neg (show ¬ (quarters (3 : ZMod 4).val == 180.0) = true by decide),
        if_pos (show (quarters (3 : ZMod 4).val == 270.0) = true by decide),
        Raster.quarterTurnBack_eq_moved]
      rfl
  · rw [angle, full, still, if_pos (show (-0.0 == 0.0) = true by decide)]

end Darkroom
