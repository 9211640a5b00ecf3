import Darkroom.Engine.Pixel
import Darkroom.Proofs.Pixels.Raster

/-!
# Flooded components

A flood fill paints over the very colors that it tests.  What is painted was visited before, and a
visited place is never tested again, so that each test reads a color of the raster it started from.
The search has filled some open places that are reached from the seed; what lies next to them was
visited or is pending.  With nothing pending, the places that were filled are the ones reached.
-/

namespace Darkroom

namespace Flood

/-! ## Places -/

/-- Two places are next to each other in a column or in a row. -/
def Touches (p q : Nat × Nat) : Prop :=
  p.1 = q.1 ∧ (p.2 + 1 = q.2 ∨ q.2 + 1 = p.2) ∨ p.2 = q.2 ∧ (p.1 + 1 = q.1 ∨ q.1 + 1 = p.1)

theorem mem_neighbors_iff
    {width height : Nat}
    {p q : Nat × Nat}
    (inside : p.1 < width ∧ p.2 < height) :
    q ∈ neighbors width height p ↔ Touches p q ∧ q.1 < width ∧ q.2 < height := by
  obtain ⟨x, y⟩ := p
  obtain ⟨x', y'⟩ := q
  unfold neighbors Touches
  simp only [List.mem_append, List.mem_ite_nil_right, List.mem_singleton, Prod.mk.injEq]
  dsimp only at inside
  omega

theorem index_eq_iff
    {width : Nat}
    {p q : Nat × Nat}
    (first : p.1 < width)
    (second : q.1 < width) :
    index width p = index width q ↔ p = q := by
  refine ⟨fun same => ?_, congrArg _⟩
  obtain ⟨columns, rows⟩ := Raster.index_inj first second same
  exact Prod.ext columns rows

/-- A place was visited. -/
def IsVisited (width : Nat) (visited : Array Bool) (p : Nat × Nat) : Prop :=
  visited.getD (index width p) true = true

theorem IsVisited.visit
    {width : Nat}
    {visited : Array Bool}
    {p : Nat × Nat}
    (before : IsVisited width visited p)
    (i : Nat) :
    IsVisited width (visited.setIfInBounds i true) p := by
  unfold IsVisited at before ⊢
  rw [Array.getD_eq_getD_getElem?] at before ⊢
  rw [Array.getElem?_setIfInBounds]
  split
  · split <;> rfl
  · exact before

theorem isVisited_visit_self
    (width : Nat)
    (visited : Array Bool)
    (p : Nat × Nat) :
    IsVisited width (visited.setIfInBounds (index width p) true) p := by
  unfold IsVisited
  rw [Array.getD_eq_getD_getElem?, Array.getElem?_setIfInBounds_self]
  split <;> rfl

/-- Visiting a place visits no other. -/
theorem isVisited_of_visit
    {width : Nat}
    {visited : Array Bool}
    {p q : Nat × Nat}
    (first : p.1 < width)
    (second : q.1 < width)
    (after : IsVisited width (visited.setIfInBounds (index width p) true) q) :
    IsVisited width visited q ∨ q = p := by
  by_cases same : index width p = index width q
  · exact .inr ((index_eq_iff first second).mp same).symm
  · unfold IsVisited at after ⊢
    rw [Array.getD_eq_getD_getElem?, Array.getElem?_setIfInBounds_ne same] at after
    rw [Array.getD_eq_getD_getElem?]
    exact .inl after

/-! ## Components -/

section Component

variable (r : Raster) (isOpen : Color → Bool)

/-- A place of a raster whose color is open. -/
def IsOpenAt (p : Nat × Nat) : Prop :=
  r.size.Contains p.1 p.2 ∧ isOpen (r.get p.1 p.2) = true

/-- The places that steps over open places reach from a seed. -/
inductive Reaches (seed : Nat × Nat) : Nat × Nat → Prop where
  | seed
      (opened : IsOpenAt r isOpen seed) :
      Reaches seed seed
  | step
      {p q : Nat × Nat}
      (reached : Reaches seed p)
      (touches : Touches p q)
      (opened : IsOpenAt r isOpen q) :
      Reaches seed q

/-- An open place that was visited. -/
def IsFilled (visited : Array Bool) (p : Nat × Nat) : Prop :=
  IsVisited r.width visited p ∧ IsOpenAt r isOpen p

/-- How far a search has come on the raster it started from. -/
structure Progress (fill : Color) (seed : Nat × Nat) (visited : Array Bool) (canvas : Raster)
    (pending : List (Nat × Nat)) : Prop where
  /-- The canvas has the size of the raster. -/
  size : canvas.size = r.size
  /-- Open places that were visited are painted. -/
  painted : ∀ p, IsFilled r isOpen visited p → canvas.get p.1 p.2 = fill
  /-- All others have their color. -/
  kept : ∀ p, r.size.Contains p.1 p.2 → ¬ IsFilled r isOpen visited p →
    canvas.get p.1 p.2 = r.get p.1 p.2
  /-- What is filled is reached. -/
  sound : ∀ p, IsFilled r isOpen visited p → Reaches r isOpen seed p
  /-- What is pending is on the raster, and reached if it is open. -/
  waiting : ∀ p ∈ pending, r.size.Contains p.1 p.2 ∧
    (IsOpenAt r isOpen p → Reaches r isOpen seed p)
  /-- The seed was visited or is pending. -/
  started : IsVisited r.width visited seed ∨ seed ∈ pending
  /-- What touches a filled place was visited or is pending. -/
  spread : ∀ p q, IsFilled r isOpen visited p → Touches p q → r.size.Contains q.1 q.2 →
    IsVisited r.width visited q ∨ q ∈ pending

end Component

variable {r canvas : Raster} {isOpen : Color → Bool} {fill : Color} {seed place : Nat × Nat}
  {visited : Array Bool} {rest : List (Nat × Nat)}

theorem IsFilled.visit
    {p : Nat × Nat}
    (filled : IsFilled r isOpen visited p)
    (i : Nat) :
    IsFilled r isOpen (visited.setIfInBounds i true) p :=
  ⟨filled.1.visit i, filled.2⟩

/-- Visiting a place fills no other. -/
theorem isFilled_of_visit
    (inside : r.size.Contains place.1 place.2)
    {p : Nat × Nat}
    (filled : IsFilled r isOpen (visited.setIfInBounds (index r.width place) true) p) :
    IsFilled r isOpen visited p ∨ p = place :=
  (isVisited_of_visit inside.1 filled.2.1.1 filled.1).imp_left fun before => ⟨before, filled.2⟩

namespace Progress

/-- The place on top is passed over when it was visited. -/
theorem pass
    (progress : Progress r isOpen fill seed visited canvas (place :: rest))
    (seen : IsVisited r.width visited place) :
    Progress r isOpen fill seed visited canvas rest := by
  have drop : ∀ p, IsVisited r.width visited p ∨ p ∈ place :: rest →
      IsVisited r.width visited p ∨ p ∈ rest := by
    rintro p (before | mem)
    · exact .inl before
    · rcases List.mem_cons.mp mem with rfl | below
      · exact .inl seen
      · exact .inr below
  exact {
    size := progress.size
    painted := progress.painted
    kept := progress.kept
    sound := progress.sound
    waiting := fun p mem => progress.waiting p (List.mem_cons_of_mem _ mem)
    started := drop seed progress.started
    spread := fun p q filled touches inside => drop q (progress.spread p q filled touches inside) }

/-- Visiting the place on top loses nothing that was visited or pending. -/
theorem advance
    {p : Nat × Nat}
    (before : IsVisited r.width visited p ∨ p ∈ place :: rest) :
    IsVisited r.width (visited.setIfInBounds (index r.width place) true) p ∨ p ∈ rest := by
  rcases before with before | mem
  · exact .inl (before.visit _)
  · rcases List.mem_cons.mp mem with rfl | below
    · exact .inl (isVisited_visit_self _ _ _)
    · exact .inr below

/-- The color that is tested at a place which was not visited is the one of the raster. -/
theorem get_of_fresh
    (progress : Progress r isOpen fill seed visited canvas (place :: rest))
    (fresh : ¬ IsVisited r.width visited place) :
    canvas.get place.1 place.2 = r.get place.1 place.2 :=
  progress.kept place (progress.waiting place List.mem_cons_self).1 fun filled => fresh filled.1

/-- A place whose color is not open is visited and stays as it is. -/
theorem leave
    (progress : Progress r isOpen fill seed visited canvas (place :: rest))
    (fresh : ¬ IsVisited r.width visited place)
    (notOpen : ¬ isOpen (canvas.get place.1 place.2) = true) :
    Progress r isOpen fill seed (visited.setIfInBounds (index r.width place) true) canvas rest := by
  have inside := (progress.waiting place List.mem_cons_self).1
  rw [progress.get_of_fresh fresh] at notOpen
  have filled_iff : ∀ p, IsFilled r isOpen (visited.setIfInBounds (index r.width place) true) p ↔
      IsFilled r isOpen visited p := by
    refine fun p => ⟨fun filled => ?_, fun filled => filled.visit _⟩
    rcases isFilled_of_visit inside filled with before | rfl
    · exact before
    · exact absurd filled.2.2 notOpen
  exact {
    size := progress.size
    painted := fun p filled => progress.painted p ((filled_iff p).mp filled)
    kept := fun p within notFilled => progress.kept p within fun filled =>
      notFilled ((filled_iff p).mpr filled)
    sound := fun p filled => progress.sound p ((filled_iff p).mp filled)
    waiting := fun p mem => progress.waiting p (List.mem_cons_of_mem _ mem)
    started := advance progress.started
    spread := fun p q filled touches within =>
      advance (progress.spread p q ((filled_iff p).mp filled) touches within) }

/-- A place whose color is open is visited and painted, and what touches it becomes pending. -/
theorem paint
    (progress : Progress r isOpen fill seed visited canvas (place :: rest))
    (fresh : ¬ IsVisited r.width visited place)
    (opened : isOpen (canvas.get place.1 place.2) = true) :
    Progress r isOpen fill seed (visited.setIfInBounds (index r.width place) true)
      (canvas.put place.1 place.2 fill) (neighbors r.width r.height place ++ rest) := by
  obtain ⟨inside, reaches⟩ := progress.waiting place List.mem_cons_self
  rw [progress.get_of_fresh fresh] at opened
  have reached := reaches ⟨inside, opened⟩
  have onCanvas : ∀ p : Nat × Nat, r.size.Contains p.1 p.2 → canvas.size.Contains p.1 p.2 :=
    fun p within => progress.size ▸ within
  have touched : ∀ p, p ∈ neighbors r.width r.height place ↔
      Touches place p ∧ r.size.Contains p.1 p.2 := fun p => mem_neighbors_iff inside
  have elsewhere : ∀ p, p ≠ place → r.size.Contains p.1 p.2 →
      (canvas.put place.1 place.2 fill).get p.1 p.2 = canvas.get p.1 p.2 :=
    fun p other within => Raster.get_put_of_ne fill (onCanvas place inside).1 (onCanvas p within)
      fun same => other (Prod.ext same.1 same.2)
  have later : ∀ p, IsVisited r.width visited p ∨ p ∈ place :: rest →
      IsVisited r.width (visited.setIfInBounds (index r.width place) true) p ∨
        p ∈ neighbors r.width r.height place ++ rest :=
    fun p before => (advance before).imp_right fun mem => List.mem_append_right _ mem
  -- Only the place itself is newly filled, and all that touches it is now pending.
  refine ⟨progress.size, fun p filled => ?_, fun p within notFilled => ?_, fun p filled => ?_,
    fun p mem => ?_, later seed progress.started, fun p q filled touches within => ?_⟩
  · by_cases same : p = place
    · rw [same]
      exact Raster.get_put_self fill (onCanvas place inside)
    · rw [elsewhere p same filled.2.1]
      exact progress.painted p ((isFilled_of_visit inside filled).resolve_right same)
  · have other : p ≠ place := by
      rintro rfl
      exact notFilled ⟨isVisited_visit_self _ _ _, inside, opened⟩
    rw [elsewhere p other within]
    exact progress.kept p within fun filled => notFilled (filled.visit _)
  · rcases isFilled_of_visit inside filled with before | rfl
    · exact progress.sound p before
    · exact reached
  · rcases List.mem_append.mp mem with next | below
    · obtain ⟨touches, within⟩ := (touched p).mp next
      exact ⟨within, fun opened => .step reached touches opened⟩
    · exact progress.waiting p (List.mem_cons_of_mem _ below)
  · rcases isFilled_of_visit inside filled with before | rfl
    · exact later q (progress.spread p q before touches within)
    · exact .inr (List.mem_append_left _ ((touched q).mpr ⟨touches, within⟩))

/-- A search goes on until nothing is pending. -/
theorem search
    {pending : List (Nat × Nat)}
    (progress : Progress r isOpen fill seed visited canvas pending) :
    ∃ visited', Progress r isOpen fill seed visited'
      (Flood.search isOpen fill visited canvas pending) [] := by
  -- Along the calls of the search, with one lemma for each of its branches.
  fun_induction Flood.search isOpen fill visited canvas pending with
  | case1 => exact ⟨_, progress⟩
  | case2 visited canvas place rest i seen inductionHypothesis =>
      have width : canvas.width = r.width := congrArg (·.width.toNat) progress.size
      have number : i = index r.width place := congrArg (index · place) width
      rw [number] at seen
      exact inductionHypothesis (progress.pass seen)
  | case3 visited canvas place rest i fresh opened next inductionHypothesis =>
      have width : canvas.width = r.width := congrArg (·.width.toNat) progress.size
      have height : canvas.height = r.height := congrArg (·.height.toNat) progress.size
      have number : i = index r.width place := congrArg (index · place) width
      have around : next = neighbors r.width r.height place ++ rest := by rw [← width, ← height]
      rw [number] at fresh inductionHypothesis ⊢
      rw [around] at inductionHypothesis ⊢
      exact inductionHypothesis (progress.paint fresh opened)
  | case4 visited canvas place rest i fresh notOpen inductionHypothesis =>
      have width : canvas.width = r.width := congrArg (·.width.toNat) progress.size
      have number : i = index r.width place := congrArg (index · place) width
      rw [number] at fresh inductionHypothesis ⊢
      exact inductionHypothesis (progress.leave fresh notOpen)

/-- With nothing pending, the filled places are the ones that are reached. -/
theorem isFilled_iff
    (progress : Progress r isOpen fill seed visited canvas [])
    (p : Nat × Nat) :
    IsFilled r isOpen visited p ↔ Reaches r isOpen seed p := by
  have visited_of : ∀ q, IsVisited r.width visited q ∨ q ∈ [] → IsVisited r.width visited q :=
    fun q visited => visited.resolve_right List.not_mem_nil
  refine ⟨progress.sound p, fun reached => ?_⟩
  induction reached with
  | seed opened => exact ⟨visited_of seed progress.started, opened⟩
  | @step p q _ touches opened filled =>
      exact ⟨visited_of q (progress.spread p q filled touches opened.1), opened⟩

end Progress

/-- Nothing was visited when a search begins at a seed on the raster. -/
theorem progress_initial
    {r : Raster}
    (isOpen : Color → Bool)
    (fill : Color)
    {seed : Nat × Nat}
    (inside : r.size.Contains seed.1 seed.2) :
    Progress r isOpen fill seed (Array.replicate r.size.area false) r [seed] := by
  have fresh : ∀ p : Nat × Nat, r.size.Contains p.1 p.2 →
      ¬ IsVisited r.width (Array.replicate r.size.area false) p := by
    intro p within visited
    have bound : index r.width p < r.size.area := r.filled ▸ Raster.index_lt within
    unfold IsVisited at visited
    rw [Array.getD_eq_getD_getElem?, Array.getElem?_replicate, if_pos bound] at visited
    cases visited
  have unfilled : ∀ p, ¬ IsFilled r isOpen (Array.replicate r.size.area false) p :=
    fun p filled => fresh p filled.2.1 filled.1
  exact {
    size := rfl
    painted := fun p filled => absurd filled (unfilled p)
    kept := fun _ _ _ => rfl
    sound := fun p filled => absurd filled (unfilled p)
    waiting := fun p mem => by
      obtain rfl := List.mem_singleton.mp mem
      exact ⟨inside, .seed⟩
    started := .inr List.mem_cons_self
    spread := fun p _ filled => absurd filled (unfilled p) }

end Flood

/-- A flood fill paints the places that are reached from its seed, and no others. -/
theorem Raster.get_floodfill
    (r : Raster)
    (seed : Nat × Nat)
    (inside : r.size.Contains seed.1 seed.2)
    (target fill : Color)
    (fuzz : Float)
    (invert : Bool) :
    let out := r.floodfill seed.1 seed.2 target fill fuzz invert
    let Reached := Flood.Reaches r (fun c => c.isNear target fuzz != invert) seed
    out.size = r.size ∧
      (∀ p, Reached p → out.get p.1 p.2 = fill) ∧
      ∀ p, r.size.Contains p.1 p.2 → ¬ Reached p → out.get p.1 p.2 = r.get p.1 p.2 := by
  intro out Reached
  obtain ⟨visited, finished⟩ :=
    (Flood.progress_initial (fun c => c.isNear target fuzz != invert) fill inside).search
  exact ⟨finished.size, fun p reached => finished.painted p ((finished.isFilled_iff p).mpr reached),
    fun p within unreached => finished.kept p within fun filled =>
      unreached ((finished.isFilled_iff p).mp filled)⟩

namespace PixelEngine

/-- A place that may be negative lies on an image. -/
def IsOn (image : Image) (x y : Int64) : Prop :=
  (0 ≤ x.toInt ∧ x.toInt < image.size.width.toNat) ∧ 0 ≤ y.toInt ∧ y.toInt < image.size.height.toNat

theorem outside_iff
    (image : Image)
    (x y : Int64) :
    x < 0 ∨ y < 0 ∨ wide image.size.width ≤ x ∨ wide image.size.height ≤ y ↔
      ¬ IsOn image x y := by
  simp only [IsOn, Int64.lt_iff_toInt_lt, Int64.le_iff_toInt_le, toInt_wide, Int64.toInt_zero]
  omega

/-- A flood fill is done on every image.  From a seed on the image it paints the places that steps
between neighbors over open places reach from the seed, the seed being open itself, and leaves all
others and the attributes of the image as they are; from a seed outside it changes nothing. -/
theorem transform_floodfill
    (image : Image)
    (x y : Int64)
    (target fill : Color)
    (fuzz : Float)
    (invert : Bool) :
    (IsOn image x y →
      ∃ out, transform image (.floodfill x y target fill fuzz invert) = .ok (.mutated out) ∧
        out = image.withRaster out.raster ∧ out.size = image.size ∧
        ∀ p, image.size.Contains p.1 p.2 →
          (Flood.Reaches image.raster (fun c => c.isNear target fuzz != invert)
              (x.toInt.toNat, y.toInt.toNat) p →
            out.raster.get p.1 p.2 = fill) ∧
          (¬ Flood.Reaches image.raster (fun c => c.isNear target fuzz != invert)
              (x.toInt.toNat, y.toInt.toNat) p →
            out.raster.get p.1 p.2 = image.raster.get p.1 p.2)) ∧
    (¬ IsOn image x y →
      transform image (.floodfill x y target fill fuzz invert) = .ok .unchanged) := by
  have done : transform image (.floodfill x y target fill fuzz invert) =
      .ok (floodfill x y target fill fuzz invert image) := rfl
  rw [done]
  unfold floodfill
  refine ⟨fun on => ?_, fun off => by rw [if_pos ((outside_iff image x y).mpr off)]⟩
  rw [if_neg fun out => (outside_iff image x y).mp out on]
  have inside : image.raster.size.Contains x.toInt.toNat y.toInt.toNat := by
    obtain ⟨⟨left, right⟩, top, bottom⟩ := on
    exact ⟨(Int.toNat_lt left).mpr right, (Int.toNat_lt top).mpr bottom⟩
  obtain ⟨size, painted, kept⟩ := image.raster.get_floodfill
    (x.toInt.toNat, y.toInt.toNat) inside target fill fuzz invert
  exact ⟨_, rfl, rfl, size, fun p within => ⟨painted p, kept p within⟩⟩

/-- An image of a white place, a black one and a white one in a row. -/
def stripes : Image :=
  { bitmap := Bitmap.rgba (Raster.ofList ⟨3, 1⟩ [Color.white, Color.black, Color.white]) }

/-- From the first stripe no other is reached. -/
theorem reaches_stripes_iff
    (p : Nat × Nat) :
    Flood.Reaches stripes.raster (fun c => c.isNear Color.white 0.0 != false) (0, 0) p ↔
      p = (0, 0) := by
  have closed : (Color.black.isNear Color.white 0.0 != false) = false := by decide
  have second : stripes.raster.get 1 0 = Color.black := by decide
  refine ⟨fun reached => ?_, ?_⟩
  · induction reached with
    | seed => rfl
    | @step p q _ touches opened inductionHypothesis =>
        obtain ⟨column, row⟩ := q
        obtain ⟨⟨across, down⟩, isOpen⟩ := opened
        have top : row = 0 := Nat.lt_one_iff.mp down
        subst inductionHypothesis top
        have next : column = 1 := by
          unfold Flood.Touches at touches
          omega
        rw [next, second] at isOpen
        exact absurd (closed.symm.trans isOpen) Bool.false_ne_true
  · rintro rfl
    exact .seed ⟨⟨by decide, by decide⟩, by decide⟩

/-- The first stripe is painted and the others stay; a seed behind the last changes nothing. -/
theorem transform_floodfill_stripes :
    (∃ out, transform stripes (.floodfill 0 0 Color.white Color.transparent 0.0 false) =
        .ok (.mutated out) ∧
      out.raster.get 0 0 = Color.transparent ∧ out.raster.get 1 0 = Color.black ∧
      out.raster.get 2 0 = Color.white) ∧
    transform stripes (.floodfill 3 0 Color.white Color.transparent 0.0 false) =
      .ok .unchanged := by
  have second : stripes.raster.get 1 0 = Color.black := by decide
  have third : stripes.raster.get 2 0 = Color.white := by decide
  have on : IsOn stripes 0 0 := ⟨⟨by decide, by decide⟩, by decide, by decide⟩
  have off : ¬ IsOn stripes 3 0 := fun on => absurd on.1.2 (by decide)
  obtain ⟨out, made, -, -, colors⟩ :=
    (transform_floodfill stripes 0 0 Color.white Color.transparent 0.0 false).1 on
  have unreached : ∀ column, column ≠ 0 → ¬ Flood.Reaches stripes.raster
      (fun c => c.isNear Color.white 0.0 != false) (0, 0) (column, 0) :=
    fun column other reached => other (Prod.ext_iff.mp ((reaches_stripes_iff _).mp reached)).1
  refine ⟨⟨out, made, ?_, ?_, ?_⟩,
    (transform_floodfill stripes 3 0 Color.white Color.transparent 0.0 false).2 off⟩
  · exact (colors (0, 0) ⟨by decide, by decide⟩).1 ((reaches_stripes_iff _).mpr rfl)
  · exact ((colors (1, 0) ⟨by decide, by decide⟩).2 (unreached 1 (by decide))).trans second
  · exact ((colors (2, 0) ⟨by decide, by decide⟩).2 (unreached 2 (by decide))).trans third

end PixelEngine
end Darkroom
