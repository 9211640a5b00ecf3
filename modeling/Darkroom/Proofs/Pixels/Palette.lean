import Darkroom.Pixels.Palette
import Darkroom.Proofs.Color.Distance
import Darkroom.Proofs.Pixels.Raster

/-!
# Images on palettes

Mapped onto a palette, every color of an image becomes a color of the palette that none is nearer
than, so that colors of the palette stay.  The palette that images share has the most frequent of
their colors; neither the order of the images matters for it nor the order in which the colors were
counted.
-/

namespace Darkroom
namespace Palette

open Color (squaredDistance)

/-! ## The nearest color -/

/-- A color of a palette that none of it is nearer than. -/
structure IsNearest (palette : List Color) (c chosen : Color) : Prop where
  /-- It is a color of the palette. -/
  member : chosen ∈ palette
  /-- No color of the palette is nearer. -/
  least : ∀ other ∈ palette, squaredDistance c chosen ≤ squaredDistance c other

/-- A color of the palette is nearest to itself. -/
theorem IsNearest.eq_of_mem
    {palette : List Color}
    {c chosen : Color}
    (isNearest : IsNearest palette c chosen)
    (member : c ∈ palette) :
    chosen = c := by
  have least := isNearest.least c member
  rw [Color.squaredDistance_eq_zero_iff.mpr rfl, Nat.le_zero,
    Color.squaredDistance_eq_zero_iff] at least
  exact least.symm

section Least

variable {α : Type} {less : α → α → Bool} {key : α → Nat}
  (respects : ∀ {a b : α}, key a < key b → less a b = true)
  (asymm : ∀ {a b : α}, less a b = true → less b a = false)

include respects asymm

/-- One comparison keeps the lesser key. -/
theorem key_ite_le
    (a b : α) :
    key (if less b a then b else a) ≤ key a ∧ key (if less b a then b else a) ≤ key b := by
  split
  · next isLess =>
    refine ⟨Nat.not_lt.mp fun more => ?_, le_rfl⟩
    exact Bool.false_ne_true ((asymm isLess).symm.trans (respects more))
  · next notLess =>
    exact ⟨le_rfl, Nat.not_lt.mp fun more => notLess (respects more)⟩

/-- What is found by comparing has a least key when the comparison respects the keys. -/
theorem key_foldl_le
    (items : List α)
    (first : α) :
    items.foldl (fun best b => if less b best then b else best) first ∈ first :: items ∧
      ∀ a ∈ first :: items,
        key (items.foldl (fun best b => if less b best then b else best) first) ≤ key a := by
  induction items generalizing first with
  | nil => exact ⟨List.mem_singleton_self first, List.forall_mem_singleton.mpr le_rfl⟩
  | cons b rest inductionHypothesis =>
      obtain ⟨member, least⟩ := inductionHypothesis (if less b first then b else first)
      obtain ⟨leFirst, leSecond⟩ := key_ite_le @respects @asymm first b
      have leBest := least _ (List.mem_cons_self ..)
      refine ⟨?_, ?_⟩
      · rcases List.mem_cons.mp member with same | later
        · rw [List.foldl_cons, same]
          split
          · exact List.mem_cons_of_mem _ (List.mem_cons_self ..)
          · exact List.mem_cons_self ..
        · exact List.mem_cons_of_mem _ (List.mem_cons_of_mem _ later)
      · rintro a (_ | ⟨_, _ | ⟨_, later⟩⟩)
        · exact leBest.trans leFirst
        · exact leBest.trans leSecond
        · exact least a (List.mem_cons_of_mem _ later)

end Least

/-- A comparison of rounded distances finds a color that is nearest. -/
theorem isNearest_nearest
    {palette : List Color}
    (nonempty : palette ≠ [])
    (c : Color) :
    IsNearest palette c (nearest palette c) := by
  have respects {a b : Color} (nearer : squaredDistance c a < squaredDistance c b) :
      isNearer c a b = true :=
    decide_eq_true (Color.distance_lt_of_squaredDistance_lt nearer)
  have asymm {a b : Color} (nearer : isNearer c a b = true) : isNearer c b a = false :=
    decide_eq_false (Binary.not_lt_of_lt (of_decide_eq_true nearer))
  cases palette with
  | nil => exact absurd rfl nonempty
  | cons first rest =>
      obtain ⟨member, least⟩ := key_foldl_le respects asymm rest first
      exact ⟨member, least⟩

/-- Mapped twice is mapped once. -/
theorem nearest_nearest
    (palette : List Color)
    (c : Color) :
    nearest palette (nearest palette c) = nearest palette c := by
  by_cases nonempty : palette = []
  · subst nonempty
    rfl
  · exact (isNearest_nearest nonempty _).eq_of_mem (isNearest_nearest nonempty c).member

/-! ## Images mapped onto a palette -/

/-- An image with every color replaced by the nearest of a palette. -/
structure IsRemapped (palette : List Color) (image out : Image) : Prop where
  /-- All but the pixels is as in the image. -/
  kept : out = image.withRaster out.raster
  /-- It has the size of the image. -/
  size : out.size = image.size
  /-- Every color is a color of the palette that none of it is nearer than. -/
  nearest : ∀ {x y : Nat}, image.size.Contains x y →
    IsNearest palette (image.raster.get x y) (out.raster.get x y)
  /-- The colors of the palette stay. -/
  fixed : ∀ {x y : Nat}, image.size.Contains x y → image.raster.get x y ∈ palette →
    out.raster.get x y = image.raster.get x y

theorem remap_of_ne_nil
    {palette : List Color}
    (nonempty : palette ≠ [])
    (image : Image) :
    remap palette image = image.withRaster (image.raster.map (Palette.nearest palette)) := by
  rw [remap, if_neg (by simpa using nonempty)]
  rfl

theorem remap_isRemapped
    {palette : List Color}
    (nonempty : palette ≠ [])
    (image : Image) :
    IsRemapped palette image (remap palette image) := by
  rw [remap_of_ne_nil nonempty]
  have colors {x y : Nat} (inside : image.size.Contains x y) :
      (image.raster.map (Palette.nearest palette)).get x y =
        Palette.nearest palette (image.raster.get x y) :=
    Raster.get_map _ inside
  refine ⟨rfl, rfl, fun inside => ?_, fun inside member => ?_⟩
  · exact (colors inside).symm ▸ isNearest_nearest nonempty _
  · exact (colors inside).trans ((isNearest_nearest nonempty _).eq_of_mem member)

theorem ofRaster_ne_nil
    {raster : Raster}
    (pixels : raster.toList ≠ []) :
    ofRaster raster ≠ [] := by
  obtain ⟨c, rest, same⟩ := List.exists_cons_of_ne_nil pixels
  have member : c ∈ ofRaster raster := List.mem_eraseDups.mpr (same ▸ List.mem_cons_self ..)
  exact List.ne_nil_of_mem member

/-- The palette of a raster without pixels changes nothing. -/
theorem remap_of_blank
    {raster : Raster}
    (blank : raster.toList = [])
    (image : Image) :
    remap (ofRaster raster) image = image := by
  rw [ofRaster, blank]
  rfl

/-- Only which colors a palette has matters for what is on it. -/
theorem IsRemapped.of_ofRaster
    {raster : Raster}
    {image out : Image}
    (isRemapped : IsRemapped (ofRaster raster) image out) :
    IsRemapped raster.toList image out where
  kept := isRemapped.kept
  size := isRemapped.size
  nearest inside :=
    have chosen := isRemapped.nearest inside
    ⟨List.mem_eraseDups.mp chosen.member,
      fun other member => chosen.least other (List.mem_eraseDups.mpr member)⟩
  fixed inside member := isRemapped.fixed inside (List.mem_eraseDups.mpr member)

/-- An image whose colors are all in the palette keeps them. -/
theorem raster_remap_of_subset
    {palette : List Color}
    {image : Image}
    (subset : image.raster.toList ⊆ palette) :
    (remap palette image).raster = image.raster := by
  by_cases nonempty : palette = []
  · subst nonempty
    rfl
  · have isRemapped := remap_isRemapped nonempty image
    refine Raster.ext_get isRemapped.size fun x y inside => ?_
    have here : image.size.Contains x y := isRemapped.size ▸ inside
    exact isRemapped.fixed here (subset (Array.mem_toList_iff.mpr (Raster.get_mem here)))

/-- Mapped twice onto one palette, an image is as when it is mapped once. -/
theorem remap_remap
    (palette : List Color)
    (image : Image) :
    remap palette (remap palette image) = remap palette image := by
  by_cases nonempty : palette = []
  · subst nonempty
    rfl
  · rw [remap_of_ne_nil nonempty, remap_of_ne_nil nonempty]
    have again : (image.raster.map (Palette.nearest palette)).map (Palette.nearest palette) =
        image.raster.map (Palette.nearest palette) := by
      refine Raster.ext_get rfl fun x y inside => ?_
      have once : (image.raster.map (Palette.nearest palette)).size.Contains x y := inside
      have here : image.raster.size.Contains x y := inside
      rw [Raster.get_map _ once, Raster.get_map _ here, nearest_nearest]
    exact congrArg image.withRaster again

/-! ## Colors counted -/

/-- A table of colors that has each color once, with how often it occurs. -/
structure IsHistogram (colors : List Color) (table : List (Color × Nat)) : Prop where
  /-- No color stands in it twice. -/
  nodup : (table.map (·.1)).Nodup
  /-- The colors that occur stand in it with their number. -/
  mem_iff : ∀ {c : Color} {n : Nat}, (c, n) ∈ table ↔ c ∈ colors ∧ n = colors.count c

theorem rank_inj
    {c d : Color}
    (same : rank c = rank d) :
    c = d := by
  have bounds (v : UInt8) : v.toNat < 256 := v.toNat_lt
  have first := bounds c.green
  have second := bounds c.blue
  have third := bounds c.alpha
  have first' := bounds d.green
  have second' := bounds d.blue
  have third' := bounds d.alpha
  unfold rank at same
  cases c
  cases d
  simp only [Color.mk.injEq, ← UInt8.toNat_inj] at *
  omega

/-- The first of the colors stands first in the table. -/
theorem exists_tally_cons
    (c : Color)
    (rest : List Color) :
    ∃ n more, tally (c :: rest) = (c, n) :: more := by
  rw [tally]
  split
  · next d n more _ =>
    split
    · next same => exact ⟨n + 1, more, by rw [same]⟩
    · exact ⟨1, (d, n) :: more, rfl⟩
  · exact ⟨1, [], rfl⟩

/-- A new color is counted once. -/
theorem IsHistogram.cons_new
    {c : Color}
    {colors : List Color}
    {table : List (Color × Nat)}
    (isHistogram : IsHistogram colors table)
    (new : c ∉ colors) :
    IsHistogram (c :: colors) ((c, 1) :: table) := by
  constructor
  · rw [List.map_cons, List.nodup_cons]
    refine ⟨fun member => ?_, isHistogram.nodup⟩
    obtain ⟨⟨d, n⟩, found, rfl⟩ := List.mem_map.mp member
    exact new (isHistogram.mem_iff.mp found).1
  · intro d n
    rw [List.mem_cons, isHistogram.mem_iff, List.mem_cons, List.count_cons, Prod.mk.injEq]
    by_cases same : d = c
    · subst same
      simp [new, List.count_eq_zero.mpr new]
    · simp [same, Ne.symm same]

/-- A color that is at the head of the table is counted once more. -/
theorem IsHistogram.cons_again
    {c : Color}
    {n : Nat}
    {colors : List Color}
    {more : List (Color × Nat)}
    (isHistogram : IsHistogram colors ((c, n) :: more)) :
    IsHistogram (c :: colors) ((c, n + 1) :: more) := by
  have nodup := isHistogram.nodup
  rw [List.map_cons, List.nodup_cons] at nodup
  obtain ⟨member, count⟩ := isHistogram.mem_iff.mp (List.mem_cons_self ..)
  refine ⟨isHistogram.nodup, fun {d m} => ?_⟩
  by_cases same : d = c
  · subst same
    have alone : (d, m) ∉ more := fun found => nodup.1 (List.mem_map.mpr ⟨_, found, rfl⟩)
    simp [alone, ← count]
  · have found := isHistogram.mem_iff (c := d) (n := m)
    simpa [same, Ne.symm same, List.count_cons] using found

/-- Equal neighbors of a list in order are all equal ones. -/
theorem isHistogram_tally
    {colors : List Color}
    (ordered : colors.Pairwise fun c d => rank c ≤ rank d) :
    IsHistogram colors (tally colors) := by
  induction colors with
  | nil => exact ⟨List.nodup_nil, by simp [tally]⟩
  | cons c rest inductionHypothesis =>
      obtain ⟨before, later⟩ := List.pairwise_cons.mp ordered
      have counted := inductionHypothesis later
      cases rest with
      | nil => exact counted.cons_new (List.not_mem_nil)
      | cons d others =>
          obtain ⟨n, more, table⟩ := exists_tally_cons d others
          rw [table] at counted
          rw [tally, table]
          dsimp only
          by_cases same : c = d
          · subst same
            rw [if_pos rfl]
            exact counted.cons_again
          · rw [if_neg same]
            refine counted.cons_new fun member => same ?_
            rcases List.mem_cons.mp member with equal | behind
            · exact equal
            · have least := (List.pairwise_cons.mp later).1 c behind
              exact rank_inj (Nat.le_antisymm (before d (List.mem_cons_self ..)) least)

/-- The colors of all rasters. -/
def pixelsOf (rasters : List Raster) : List Color :=
  rasters.flatMap Raster.toList

theorem IsHistogram.of_perm
    {colors others : List Color}
    {table : List (Color × Nat)}
    (isHistogram : IsHistogram colors table)
    (perm : colors.Perm others) :
    IsHistogram others table := by
  refine ⟨isHistogram.nodup, fun {c n} => ?_⟩
  rw [isHistogram.mem_iff, perm.mem_iff, perm.count_eq]

theorem histogram_isHistogram
    (rasters : List Raster) :
    IsHistogram (pixelsOf rasters) (histogram rasters) := by
  have ordered : ((pixelsOf rasters).mergeSort fun c d => rank c ≤ rank d).Pairwise
      fun c d => decide (rank c ≤ rank d) = true :=
    List.pairwise_mergeSort
      (fun _ _ _ first second => by simp only [decide_eq_true_iff] at *; omega)
      (fun _ _ => by simp only [Bool.or_eq_true, decide_eq_true_iff]; omega) _
  simp only [decide_eq_true_iff] at ordered
  exact (isHistogram_tally ordered).of_perm (List.mergeSort_perm _ _)

theorem IsHistogram.length
    {colors : List Color}
    {table : List (Color × Nat)}
    (isHistogram : IsHistogram colors table) :
    table.length = colors.toFinset.card := by
  have same : (table.map (·.1)).toFinset = colors.toFinset := by
    ext c
    simp [isHistogram.mem_iff]
  rw [← same, List.toFinset_card_of_nodup isHistogram.nodup, List.length_map]

/-- Two tables of the same colors differ in their order only. -/
theorem IsHistogram.perm
    {colors : List Color}
    {table other : List (Color × Nat)}
    (first : IsHistogram colors table)
    (second : IsHistogram colors other) :
    table.Perm other :=
  (List.perm_ext_iff_of_nodup (.of_map _ first.nodup) (.of_map _ second.nodup)).mpr
    fun _ => first.mem_iff.trans second.mem_iff.symm

/-! ## The most frequent colors -/

theorem precedes_iff
    {a b : Color × Nat} :
    precedes a b = true ↔ b.2 < a.2 ∨ a.2 = b.2 ∧ rank a.1 ≤ rank b.1 := by
  simp [precedes]

theorem pairwise_mergeSort_precedes
    (table : List (Color × Nat)) :
    (table.mergeSort precedes).Pairwise fun a b => precedes a b = true :=
  List.pairwise_mergeSort
    (fun _ _ _ first second => by
      rw [precedes_iff] at *
      omega)
    (fun _ _ => by
      rw [Bool.or_eq_true, precedes_iff, precedes_iff]
      omega)
    table

/-- The order of a table does not matter for its first colors. -/
theorem foremost_of_perm
    {table other : List (Color × Nat)}
    (perm : table.Perm other)
    (limit : Nat) :
    foremost table limit = foremost other limit := by
  have sorted : (table.mergeSort precedes).Perm (other.mergeSort precedes) :=
    (List.mergeSort_perm _ _).trans (perm.trans (List.mergeSort_perm _ _).symm)
  have same : table.mergeSort precedes = other.mergeSort precedes := by
    refine sorted.eq_of_pairwise (fun a b _ _ first second => ?_)
      (pairwise_mergeSort_precedes table) (pairwise_mergeSort_precedes other)
    rw [precedes_iff] at first second
    exact Prod.ext (rank_inj (by omega)) (by omega)
  rw [foremost, foremost, same]

/-- The most frequent colors of some, up to a number of at least one. -/
structure IsShared (colors : List Color) (limit : Nat) (palette : List Color) : Prop where
  /-- No color stands in it twice. -/
  nodup : palette.Nodup
  /-- All of them occur. -/
  subset : palette ⊆ colors
  /-- They are as many as the limit allows and as there are. -/
  length : palette.length = min (max limit 1) colors.toFinset.card
  /-- A color that is left out is no more frequent than any that is not. -/
  frequent : ∀ kept ∈ palette, ∀ left ∈ colors, left ∉ palette →
    colors.count left ≤ colors.count kept

theorem IsHistogram.foremost_isShared
    {colors : List Color}
    {table : List (Color × Nat)}
    (isHistogram : IsHistogram colors table)
    (limit : Nat) :
    IsShared colors limit (foremost table limit) := by
  have perm := List.mergeSort_perm table precedes
  have sorted := pairwise_mergeSort_precedes table
  rw [foremost]
  generalize table.mergeSort precedes = ranked at perm sorted
  have counted {c : Color} {n : Nat} (found : (c, n) ∈ ranked) : c ∈ colors ∧ n = colors.count c :=
    isHistogram.mem_iff.mp (perm.mem_iff.mp found)
  refine ⟨?_, ?_, ?_, ?_⟩
  · exact ((perm.map _).nodup_iff.mpr isHistogram.nodup).sublist ((List.take_sublist _ _).map _)
  · intro c member
    obtain ⟨⟨c, n⟩, found, rfl⟩ := List.mem_map.mp member
    exact (counted (List.mem_of_mem_take found)).1
  · rw [List.length_map, List.length_take, perm.length_eq, isHistogram.length]
  · intro kept keptMember left leftMember out
    obtain ⟨⟨kept, n⟩, found, rfl⟩ := List.mem_map.mp keptMember
    have listed : (left, colors.count left) ∈ ranked :=
      perm.mem_iff.mpr (isHistogram.mem_iff.mpr ⟨leftMember, rfl⟩)
    -- What is not among the first comes behind all of them.
    rw [← List.take_append_drop (max limit 1) ranked] at listed sorted
    have behind := (List.mem_append.mp listed).resolve_left fun early =>
      out (List.mem_map.mpr ⟨_, early, rfl⟩)
    have ordered := precedes_iff.mp ((List.pairwise_append.mp sorted).2.2 _ found _ behind)
    have count := (counted (List.mem_of_mem_take found)).2
    dsimp only at ordered ⊢
    omega

/-- All colors are kept when there are no more than the limit. -/
theorem IsShared.subset_of_few
    {colors palette : List Color}
    {limit : Nat}
    (isShared : IsShared colors limit palette)
    (few : colors.toFinset.card ≤ limit) :
    colors ⊆ palette := by
  have length : palette.toFinset.card = colors.toFinset.card := by
    rw [List.toFinset_card_of_nodup isShared.nodup, isShared.length]
    omega
  have same := Finset.eq_of_subset_of_card_le
    (fun _ member => List.mem_toFinset.mpr (isShared.subset (List.mem_toFinset.mp member)))
    length.ge
  intro c member
  rw [← List.mem_toFinset, same]
  exact List.mem_toFinset.mpr member

/-- However the colors of rasters in any order are counted, they share one palette. -/
theorem foremost_eq_shared
    {rasters others : List Raster}
    (perm : rasters.Perm others)
    {table : List (Color × Nat)}
    (isHistogram : IsHistogram (pixelsOf others) table)
    (limit : Nat) :
    foremost table limit = shared rasters limit :=
  foremost_of_perm (isHistogram.perm
    ((histogram_isHistogram rasters).of_perm (perm.flatMap_right _))) limit

theorem shared_isShared
    (rasters : List Raster)
    (limit : Nat) :
    IsShared (pixelsOf rasters) limit (shared rasters limit) :=
  (histogram_isHistogram rasters).foremost_isShared limit

end Palette
end Darkroom
