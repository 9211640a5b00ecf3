import Darkroom.Proofs.Geometry.Page
import Darkroom.Proofs.Pixels.Symmetry
import Darkroom.Proofs.Session.Redrawing

/-!
# Command lines that turn and mirror images

The options for mirrors and for turns by multiples of ninety degrees move the pixels of every image
by a symmetry of the square, and a command line of them by the product of theirs.  Whatever such a
command line comes to is therefore calculated in that group of eight.
-/

namespace Darkroom

open Decimal Binary

/-! ## Angles in texts -/

/-- The text of an angle of so many quarter turns, whatever the shape of the image. -/
def IsTurn (text : String) (turns : Int) : Prop :=
  ∃ g, Geometry.parse text = .ok g ∧ g.modifiers.greater = false ∧ g.modifiers.less = false ∧
    HasValue g.rhoValue (90 * turns)

theorem takeNumber_toString
    (n : Int) :
    takeNumber true (toString n).toList = some (signedWhole n, []) := by
  rw [Int.toString_eq_repr, Int.repr_eq_if]
  split
  · next above =>
    have magnitude : n.toNat = n.natAbs := by omega
    have read := takeNumber_of_stops true n.natAbs (show StopsNumber [] from trivial)
    rw [List.append_nil] at read
    rw [Nat.toList_repr, magnitude, read, signedWhole, if_neg (not_lt.mpr above)]
  · next below =>
    have magnitude : (-n).toNat = n.natAbs := by omega
    have read := takeNumber_signed n (show EndsNumber [] from trivial)
    rw [List.append_nil, signOf, if_pos (not_le.mp below)] at read
    rw [String.toList_append, Nat.toList_repr, magnitude]
    exact read

/-- A whole number is read as an angle. -/
theorem ofChars?_toString
    (n : Int) :
    Geometry.ofChars? (toString n).toList = some { rho := some (signedWhole n) } := by
  have alphabet : ∀ c ∈ (toString n).toList, IsNumberChar c := by
    rw [Int.toString_eq_repr, Int.repr_eq_if]
    split
    · rw [Nat.toList_repr]
      exact isNumberChar_of_mem_toDigits _
    · rw [String.toList_append, Nat.toList_repr, List.forall_mem_append]
      exact ⟨by decide, isNumberChar_of_mem_toDigits _⟩
  have first : Geometry.takeOptional true (toString n).toList = (some (signedWhole n), []) := by
    rw [Geometry.takeOptional, takeNumber_toString]
  rw [Geometry.ofChars?, split_of_numberChars alphabet]
  dsimp only
  rw [first]
  rfl

/-- A multiple of ninety in whole numbers is the text of a turn when a double stands for it. -/
theorem isTurn_toString
    (turns : Int)
    (inRange : (90 * turns).natAbs.log2 < 1024)
    (isExact : IsExact (90 * turns).natAbs) :
    IsTurn (toString (90 * turns)) turns := by
  refine ⟨{ rho := some (signedWhole (90 * turns)) }, ?_, rfl, rfl, ?_⟩
  · delta Geometry.parse
    rw [ofChars?_toString]
  · have value := hasValue_signedWhole inRange isExact
    rwa [Int.cast_mul, Int.cast_ofNat] at value

namespace Session

/-! ## Steps -/

theorem redraws_of_always
    {settings : Settings}
    {entry : CatalogEntry}
    {option : String}
    {op : Transform}
    {g : Raster.Symmetry}
    (kind : entry.kind = .image)
    (named : ImageOperator.named? (Invocation.of option none none).name =
      some (ImageOperator.always op))
    (other : (Invocation.of option none none).name ∉ ImageOperator.counting)
    (transformed : ∀ image, PixelEngine.transform image op =
      .ok (.mutated (PixelEngine.moved (Raster.moved g) image))) :
    Redraws settings (Bitmap.moved g) (.apply entry option []) :=
  redraws_of_transform kind named other fun _ _ _ => ⟨op, _, rfl, transformed _, rfl⟩

theorem redraws_rotate
    {settings : Settings}
    {text : String}
    {turns : Int}
    (isTurn : IsTurn text turns) :
    Redraws settings (Bitmap.moved (.r turns))
      (.apply (Catalog.one "rotate" .image) "-rotate" [text]) := by
  obtain ⟨g, parsed, notGreater, notLess, value⟩ := isTurn
  have named : ImageOperator.named? (Invocation.of "-rotate" (some text) none).name =
      some .rotate := rfl
  refine redraws_of_transform rfl named (show "rotate" ∉ _ by decide) fun s _ image => ?_
  have read : (Invocation.of "-rotate" (some text) none).geometry = .ok g :=
    Invocation.geometry_of_parse rfl parsed
  have decided : ImageOperator.rotate (s.viewDuring default) (s.given image)
      (Invocation.of "-rotate" (some text) none) =
        .ok (.apply (.rotate g.rhoValue (s.given image).background) id) := by
    change ((Invocation.of "-rotate" (some text) none).geometry).bind _ = _
    rw [read]
    change (if _ then _ else _) = _
    rw [notGreater, notLess]
    rfl
  exact ⟨_, _, decided, rfl, congrArg (fun bitmap => [bitmap]) (Image.rotate_bitmap value _ _)⟩

/-! ## Command lines -/

/-- Words that move the pixels of every image, and the symmetry they come to. -/
inductive Moves : List String → Raster.Symmetry → Prop
  /-- No words move nothing. -/
  | nil : Moves [] 1
  /-- Top and bottom are exchanged first. -/
  | flip {tokens : List String} {g : Raster.Symmetry} (others : Moves tokens g) :
      Moves ("-flip" :: tokens) (g * .sr 2)
  /-- Left and right are exchanged first. -/
  | flop {tokens : List String} {g : Raster.Symmetry} (others : Moves tokens g) :
      Moves ("-flop" :: tokens) (g * .sr 0)
  /-- Rows and columns are exchanged first. -/
  | transpose {tokens : List String} {g : Raster.Symmetry} (others : Moves tokens g) :
      Moves ("-transpose" :: tokens) (g * .sr 1)
  /-- Rows and columns are exchanged first, from the other corner. -/
  | transverse {tokens : List String} {g : Raster.Symmetry} (others : Moves tokens g) :
      Moves ("-transverse" :: tokens) (g * .sr 3)
  /-- Quarter turns come first. -/
  | rotate {text : String} {turns : Int} {tokens : List String} {g : Raster.Symmetry}
      (isTurn : IsTurn text turns) (others : Moves tokens g) :
      Moves ("-rotate" :: text :: tokens) (g * .r turns)

theorem Moves.allRedraw
    {settings : Settings}
    {tokens : List String}
    {g : Raster.Symmetry}
    (moves : Moves tokens g) :
    AllRedraw settings tokens (Bitmap.moved g) := by
  have product (g h : Raster.Symmetry) :
      Bitmap.moved (g * h) = Bitmap.moved g ∘ Bitmap.moved h :=
    funext (Bitmap.moved_mul g h)
  induction moves with
  | nil =>
      rw [show Bitmap.moved 1 = id from funext Bitmap.moved_one]
      exact .nil
  | flip _ inductionHypothesis =>
      rw [product]
      refine .cons rfl (redraws_of_always rfl rfl (show "flip" ∉ _ by decide) fun image => ?_)
        inductionHypothesis
      rw [← Raster.flip_eq_moved]
      rfl
  | flop _ inductionHypothesis =>
      rw [product]
      exact .cons rfl (redraws_of_always rfl rfl (show "flop" ∉ _ by decide) fun image => rfl)
        inductionHypothesis
  | transpose _ inductionHypothesis =>
      rw [product]
      exact .cons rfl (redraws_of_always rfl rfl (show "transpose" ∉ _ by decide) fun image => rfl)
        inductionHypothesis
  | transverse _ inductionHypothesis =>
      rw [product]
      refine .cons rfl (redraws_of_always rfl rfl (show "transverse" ∉ _ by decide) fun image => ?_)
        inductionHypothesis
      rw [← Raster.transverse_eq_moved]
      rfl
  | rotate isTurn _ inductionHypothesis =>
      rw [product]
      exact .cons rfl (redraws_rotate isTurn) inductionHypothesis

/-- Words that move pixels move those of every image by their symmetry. -/
theorem Moves.bitmapsAfter
    {tokens : List String}
    {g : Raster.Symmetry}
    (moves : Moves tokens g)
    {s : Session Disk}
    (whole : s.images.Whole) :
    s.bitmapsAfter tokens = s.images.toList.map fun image => image.bitmap.moved g :=
  bitmapsAfter_of_allRedraw moves.allRedraw whole

/-- Words whose symmetry is the unit restore every image. -/
theorem Moves.restores
    {tokens : List String}
    (moves : Moves tokens 1)
    {s : Session Disk}
    (whole : s.images.Whole) :
    s.bitmapsAfter tokens = s.images.toList.map Image.bitmap := by
  rw [moves.bitmapsAfter whole]
  exact List.map_congr_left fun image _ => image.bitmap.moved_one

/-- The bitmap lies on its side, in its layout, and every pixel is where it was sent. -/
structure LiesOnSide (send : Int × Int → Int × Int) (before after : Bitmap) : Prop where
  /-- The layout is kept. -/
  layout : after.layout = before.layout
  /-- The sides are exchanged. -/
  size : after.size = before.size.swapped
  /-- A place that the bitmap has is sent to one, and a place outside to one outside. -/
  sent : ∀ x y, after.raster.get? (send (x, y)).1 (send (x, y)).2 = before.raster.get? x y

/-- Every symmetry of the square is that of some words. -/
theorem exists_moves
    (g : Raster.Symmetry) :
    ∃ tokens, Moves tokens g := by
  have turned (turns : Nat) : ∃ tokens, Moves tokens (.r (turns : ZMod 4)) := by
    induction turns with
    | zero => exact ⟨[], .nil⟩
    | succ turns inductionHypothesis =>
        obtain ⟨tokens, moves⟩ := inductionHypothesis
        refine ⟨"-transpose" :: "-flop" :: tokens, ?_⟩
        have more : DihedralGroup.r (turns : ZMod 4) * .sr 0 * .sr 1 = .r ((turns + 1 : ℕ)) := by
          rw [mul_assoc, DihedralGroup.sr_mul_sr, DihedralGroup.r_mul_r, sub_zero, Nat.cast_succ]
        exact more ▸ .transpose (.flop moves)
  cases g with
  | r turns =>
      obtain ⟨tokens, moves⟩ := turned turns.val
      rw [ZMod.natCast_zmod_val] at moves
      exact ⟨tokens, moves⟩
  | sr turns =>
      obtain ⟨tokens, moves⟩ := turned (-turns).val
      rw [ZMod.natCast_zmod_val] at moves
      have mirrored : DihedralGroup.r (-turns) * .sr 0 = .sr turns := by
        rw [DihedralGroup.r_mul_sr, zero_sub, neg_neg]
      exact ⟨"-flop" :: tokens, mirrored ▸ .flop moves⟩

/-- Mirrors and quarter turns act on the pixels of all images as the symmetries of the square do.
Exchanging rows and columns sends each pixel to its mirrored place; a mirror undoes itself, a turn
by a multiple of ninety degrees is undone by the opposite one, and words of the same symmetry come
to the same. -/
theorem quarter_turns_and_mirrors_form_group
    {s : Session Disk}
    (whole : s.images.Whole) :
    let bitmaps := s.images.toList.map Image.bitmap
    List.Forall₂ (LiesOnSide fun (x, y) => (y, x)) bitmaps (s.bitmapsAfter ["-transpose"]) ∧
      List.Forall₂
        (fun before => LiesOnSide
          (fun (x, y) => (before.raster.height - 1 - y, before.raster.width - 1 - x)) before)
        bitmaps (s.bitmapsAfter ["-transverse"]) ∧
      (∀ option ∈ ["-flip", "-flop", "-transpose", "-transverse"],
        s.bitmapsAfter [option, option] = bitmaps) ∧
      (∀ text opposite turns, IsTurn text turns → IsTurn opposite (-turns) →
        s.bitmapsAfter ["-rotate", text, "-rotate", opposite] = bitmaps) ∧
      s.bitmapsAfter ["-rotate", "90"] = s.bitmapsAfter ["-transpose", "-flop"] ∧
      s.bitmapsAfter ["-transverse"] = s.bitmapsAfter ["-transpose", "-rotate", "180"] ∧
      (∀ g tokens tokens', Moves tokens g → Moves tokens' g →
        s.bitmapsAfter tokens = s.bitmapsAfter tokens') ∧
      ∀ g, ∃ tokens, Moves tokens g := by
  intro bitmaps
  have quarter : IsTurn "90" 1 := isTurn_toString 1 (by decide) (isExact_of_le (by decide))
  have half : IsTurn "180" 2 := isTurn_toString 2 (by decide) (isExact_of_le (by decide))
  have same (g : Raster.Symmetry) (tokens tokens' : List String) (moves : Moves tokens g)
      (moves' : Moves tokens' g) : s.bitmapsAfter tokens = s.bitmapsAfter tokens' := by
    rw [moves.bitmapsAfter whole, moves'.bitmapsAfter whole]
  refine ⟨?transpose, ?transverse, ?twice, ?back, ?ninety, ?crossed, same, exists_moves⟩
  case transpose =>
    refine forall₂_bitmapsAfter (Moves.allRedraw (.transpose .nil)) whole fun b => ?_
    have raster : (b.moved (1 * .sr 1)).raster = b.raster.transpose := by
      rw [one_mul, Bitmap.raster_moved, Raster.transpose_eq_moved]
    refine ⟨b.layout_moved _, ?_, fun x y => ?_⟩
    · rw [Bitmap.size, raster, Raster.size_transpose, Bitmap.size]
    · rw [raster]
      exact b.raster.get?_transpose x y
  case transverse =>
    refine forall₂_bitmapsAfter (Moves.allRedraw (.transverse .nil)) whole fun b => ?_
    have raster : (b.moved (1 * .sr 3)).raster = b.raster.transverse := by
      rw [one_mul, Bitmap.raster_moved, Raster.transverse_eq_moved]
    refine ⟨b.layout_moved _, ?_, fun x y => ?_⟩
    · rw [Bitmap.size, raster, Raster.size_transverse, Bitmap.size]
    · rw [raster]
      exact b.raster.get?_transverse x y
  case twice =>
    simp only [List.forall_mem_cons]
    exact ⟨Moves.restores (.flip (.flip .nil)) whole, Moves.restores (.flop (.flop .nil)) whole,
      Moves.restores (.transpose (.transpose .nil)) whole,
      Moves.restores (.transverse (.transverse .nil)) whole, List.forall_mem_nil _⟩
  case back =>
    intro text opposite turns isTurn isOpposite
    refine Moves.restores ?_ whole
    have undone : (1 : Raster.Symmetry) * .r ((-turns : Int)) * .r turns = 1 := by
      rw [one_mul, DihedralGroup.r_mul_r, Int.cast_neg, neg_add_cancel]
      rfl
    exact undone ▸ .rotate isTurn (.rotate isOpposite .nil)
  case ninety =>
    exact same (.r 1) _ _ (.rotate quarter .nil) (.transpose (.flop .nil))
  case crossed =>
    exact same (.sr 3) _ _ (.transverse .nil) (.transpose (.rotate half .nil))

/-- A broad image in color and a tall one in gray are turned out of the way and back. -/
theorem two_images_turned_back :
    let broad : Image :=
      { bitmap := Bitmap.of .rgb8 (Raster.ofFn ⟨3, 2⟩ fun x y => ⟨.ofNat x, .ofNat y, 7, 255⟩) }
    let tall : Image :=
      { bitmap := Bitmap.of .la8 (Raster.ofFn ⟨1, 4⟩ fun _ y => ⟨.ofNat y, 0, 0, 9⟩) }
    let s : Session Disk := { images := .ofList [broad, tall], world := ⟨[]⟩ }
    s.images.Whole ∧ IsTurn "450" 5 ∧ IsTurn "-450" (-5) ∧
      s.bitmapsAfter ["-rotate", "450", "-rotate", "-450"] = [broad.bitmap, tall.bitmap] ∧
      s.bitmapsAfter ["-transverse", "-transverse"] = [broad.bitmap, tall.bitmap] := by
  intro broad tall s
  have whole : s.images.Whole := .ofList _
  have isTurn : IsTurn "450" 5 := isTurn_toString 5 (by decide) (isExact_of_le (by decide))
  have written : toString (90 * (-5) : Int) = "-450" := by decide
  have isOpposite : IsTurn "-450" (-5) :=
    written ▸ isTurn_toString (-5) (by decide) (isExact_of_le (by decide))
  obtain ⟨-, -, twice, back, -⟩ := quarter_turns_and_mirrors_form_group whole
  exact ⟨whole, isTurn, isOpposite, back _ _ _ isTurn isOpposite, twice _ (by decide)⟩

/-- Words that move pixels come to the same for all sessions only when their symmetries are the
same. -/
theorem moves_agree_iff
    {tokens tokens' : List String}
    {g g' : Raster.Symmetry}
    (moves : Moves tokens g)
    (moves' : Moves tokens' g') :
    (∀ s : Session Disk, s.images.Whole → s.bitmapsAfter tokens = s.bitmapsAfter tokens') ↔
      g = g' := by
  constructor
  · intro agree
    refine Raster.moved_injective (funext fun r => ?_)
    let s : Session Disk := { images := .ofList [{ bitmap := .rgba r }], world := {} }
    have whole : s.images.Whole := .ofList _
    have same := agree s whole
    rw [moves.bitmapsAfter whole, moves'.bitmapsAfter whole] at same
    have bitmaps : (Bitmap.rgba r).moved g = (Bitmap.rgba r).moved g' := (List.cons.inj same).1
    have rasters := congrArg Bitmap.raster bitmaps
    rwa [Bitmap.raster_moved, Bitmap.raster_moved] at rasters
  · rintro rfl s whole
    rw [moves.bitmapsAfter whole, moves'.bitmapsAfter whole]

end Session
end Darkroom
