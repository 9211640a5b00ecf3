import Darkroom.Proofs.Placement
import Darkroom.Proofs.Session.Separation

/-!
# Command lines that redraw images

Many options make one image of each, with other pixels, and leave the settings alone.  When all
options of a command line do, the pixels of every image are changed by one after the other, whatever
else the session holds; a list without images stays empty.
-/

namespace Darkroom

/-! ## Arguments that are understood -/

namespace Invocation

variable {inv : Invocation} {text : String}

theorem geometry_of_parse
    {g : Geometry}
    (given : inv.first? = some text)
    (parsed : Geometry.parse text = .ok g) :
    inv.geometry = .ok g := by
  have read : geometryOf text = .ok g := by
    rw [geometryOf, parsed]
    rfl
  simp only [geometry, first, given]
  exact read

theorem region_of_parse
    {r : Region}
    (given : inv.first? = some text)
    (parsed : Region.parse text = .ok r) :
    inv.region = .ok r := by
  have read : regionOf text = .ok r := by
    rw [regionOf, parsed]
    rfl
  simp only [region, first, given]
  exact read

theorem keyword_of_parse
    {κ : Type}
    [Keyword κ]
    {k : κ}
    (given : inv.first? = some text)
    (parsed : Keyword.parse text = .ok k) :
    inv.keyword κ = .ok k := by
  have read : keywordOf κ text = .ok k := by
    rw [keywordOf, parsed]
    rfl
  simp only [keyword, first, given]
  exact read

end Invocation

namespace Session

/-! ## What a visit makes -/

section Visits

variable {operator : ImageOperator} {inv : Invocation} {image : Image} {s : Session Disk}

/-- The image as a visit gives it to the operator. -/
def given (s : Session Disk) (image : Image) : Image :=
  s.settings.image.sync image

/-- What an operator sees during a visit. -/
def viewDuring (s : Session Disk) (h : Handle) : View :=
  view .standard { s with images := (s.images.take h).2 }

/-- What the engine makes of the image takes its place. -/
theorem visit_made_of_transform
    {op : Transform}
    {outcome : Outcome}
    {h : Handle}
    (decided : operator (s.viewDuring h) (s.given image) inv = .ok (.apply op id))
    (transformed : PixelEngine.transform (s.given image) op = .ok outcome) :
    (s.visit .standard operator inv h image).made = outcome.made (s.given image) := by
  have acted : actOnImage .standard operator inv (s.given image)
      { s with images := (s.images.take h).2 } =
        (.ok (.ofOutcome (s.given image) id outcome),
          { s with images := (s.images.take h).2 }) := by
    unfold viewDuring at decided
    rw [actOnImage, decided]
    change (((PixelEngine.transform (s.given image) op).mapError EngineFault.toFault).map
      (Product.ofOutcome (s.given image) id), _) = _
    rw [transformed]
    rfl
  unfold given at acted
  simp only [visit, acted, Visit.made, Visit.product]
  cases outcome with
  | parts images => exact List.map_id images
  | _ => rfl

end Visits

/-! ## Steps -/

/-- A step makes one image of each, with its bitmap changed in one way, and keeps the settings. -/
def Redraws (settings : Settings) (change : Bitmap → Bitmap) (step : CommandStep) : Prop :=
  ∀ s : Session Disk, s.settings = settings → s.images.Whole →
    ∃ images, GoesOnWith settings images (s.perform .standard step) ∧
      images.map Image.bitmap = s.images.toList.map fun image => change image.bitmap

section Operators

variable {settings : Settings} {change : Bitmap → Bitmap} {entry : CatalogEntry} {option : String}
  {arguments : List String} {operator : ImageOperator} (kind : entry.kind = .image)
  (named : ImageOperator.named? (Invocation.of option arguments[0]? arguments[1]?).name =
    some operator)
  (other : (Invocation.of option arguments[0]? arguments[1]?).name ∉ ImageOperator.counting)

include kind named other

/-- An operator on one image is applied in a pass over the list; without images nothing is made. -/
theorem perform_goesOnWith
    {s : Session Disk}
    (whole : s.images.Whole)
    {makes : Image → List Image}
    (made : ∀ image,
      (s.visit .standard operator (.of option arguments[0]? arguments[1]?) default image).made =
        makes image) :
    GoesOnWith s.settings (s.images.toList.flatMap makes)
      (s.perform .standard (.apply entry option arguments)) := by
  have performed : s.perform .standard (.apply entry option arguments) =
      s.applyToImages .standard option arguments[0]? arguments[1]? := by
    rw [perform, kind, apply]
  rw [performed]
  cases empty : s.images.isEmpty with
  | true =>
      have none : s.images.toList = [] := by
        rwa [whole.isEmpty_toList, List.isEmpty_iff] at empty
      have refused : s.applyToImages .standard option arguments[0]? arguments[1]? =
          settle (.of option arguments[0]? arguments[1]?) (.error .noImages, s) := by
        simp [applyToImages, named, empty]
      rw [refused, none]
      exact ⟨rfl, rfl, whole, none⟩
  | false => exact pass_goesOnWith option _ _ named other whole empty made

/-- An operator that makes one image of each redraws images. -/
theorem redraws_of_made
    (made : ∀ s : Session Disk, s.settings = settings → ∀ image,
      (s.visit .standard operator (.of option arguments[0]? arguments[1]?) default image).made.map
        Image.bitmap = [change image.bitmap]) :
    Redraws settings change (.apply entry option arguments) := by
  intro s same whole
  refine ⟨_, same ▸ perform_goesOnWith kind named other whole fun image => rfl, ?_⟩
  rw [List.map_flatMap, List.map_eq_flatMap]
  exact congrArg (s.images.toList.flatMap ·) (funext (made s same))

/-- An operator redraws images when the engine makes one image of each. -/
theorem redraws_of_transform
    (acts : ∀ s : Session Disk, s.settings = settings → ∀ image, ∃ op outcome,
      operator (s.viewDuring default) (s.given image)
        (.of option arguments[0]? arguments[1]?) = .ok (.apply op id) ∧
      PixelEngine.transform (s.given image) op = .ok outcome ∧
      (outcome.made (s.given image)).map Image.bitmap = [change image.bitmap]) :
    Redraws settings change (.apply entry option arguments) :=
  redraws_of_made kind named other fun s same image => by
    obtain ⟨op, outcome, decided, transformed, bitmaps⟩ := acts s same image
    rw [visit_made_of_transform decided transformed, bitmaps]

end Operators

/-! ## Command lines -/

/-- The bitmaps of the images after a command line. -/
def bitmapsAfter (s : Session Disk) (tokens : List String) : List Bitmap :=
  (s.run .standard tokens).2.images.toList.map Image.bitmap

/-- All steps of a command line redraw images, and their changes together are this one. -/
inductive AllRedraw (settings : Settings) : List String → (Bitmap → Bitmap) → Prop
  /-- No words change nothing. -/
  | nil : AllRedraw settings [] id
  /-- The words of one step, and those of the steps that follow. -/
  | cons {token : String} {rest later : List String} {step : CommandStep}
      {change changes : Bitmap → Bitmap} (first : CommandStep.next token rest = (step, later))
      (redraws : Redraws settings change step) (others : AllRedraw settings later changes) :
      AllRedraw settings (token :: rest) (changes ∘ change)

theorem AllRedraw.one
    {settings : Settings}
    {token : String}
    {rest : List String}
    {step : CommandStep}
    {change : Bitmap → Bitmap}
    (only : CommandStep.next token rest = (step, []))
    (redraws : Redraws settings change step) :
    AllRedraw settings (token :: rest) change := by
  rw [← Function.id_comp change]
  exact .cons only redraws .nil

theorem catchIncidents_kept
    (s : Session Disk) :
    (s.catchIncidents false).2.settings = s.settings ∧
      (s.catchIncidents false).2.images = s.images := by
  unfold catchIncidents
  dsimp only
  split <;> exact ⟨rfl, rfl⟩

/-- The first step is done, and the others with what it left. -/
theorem bitmapsAfter_cons
    {token : String}
    {rest later : List String}
    {step : CommandStep}
    {settings : Settings}
    {images : List Image}
    {s : Session Disk}
    (first : CommandStep.next token rest = (step, later))
    (done : GoesOnWith settings images (s.perform .standard step)) :
    ∃ t : Session Disk, t.settings = settings ∧ t.images.Whole ∧ t.images.toList = images ∧
      s.bitmapsAfter (token :: rest) = t.bitmapsAfter later := by
  obtain ⟨goesOn, kept, whole, left⟩ := done
  rw [bitmapsAfter, run_eq_runSteps, CommandStep.parse_cons, first, runSteps_cons]
  generalize s.perform .standard step = ended at *
  obtain ⟨_, between⟩ := ended
  cases goesOn
  obtain ⟨sameSettings, sameImages⟩ := catchIncidents_kept between
  refine ⟨(between.catchIncidents false).2, by rw [sameSettings, kept], by rwa [sameImages],
    by rw [sameImages, left], ?_⟩
  rw [bitmapsAfter, run_eq_runSteps]

/-- A command line that redraws changes the bitmap of each image. -/
theorem bitmapsAfter_of_allRedraw
    {tokens : List String}
    {change : Bitmap → Bitmap}
    {s : Session Disk}
    (redrawn : AllRedraw s.settings tokens change)
    (whole : s.images.Whole) :
    s.bitmapsAfter tokens = s.images.toList.map fun image => change image.bitmap := by
  generalize same : s.settings = settings at redrawn
  induction redrawn generalizing s with
  | nil =>
      rw [bitmapsAfter, run_nil, finish_images]
      rfl
  | @cons token rest later step change changes first redraws others inductionHypothesis =>
      obtain ⟨images, done, bitmaps⟩ := redraws s same whole
      obtain ⟨t, kept, wholeAfter, left, goesOn⟩ := bitmapsAfter_cons first done
      rw [goesOn, inductionHypothesis wholeAfter kept, left]
      calc images.map (fun image => changes image.bitmap)
          = (images.map Image.bitmap).map changes := List.map_map.symm
        _ = s.images.toList.map (fun image => (changes ∘ change) image.bitmap) := by
            rw [bitmaps, List.map_map]
            rfl

theorem forall₂_bitmapsAfter
    {relation : Bitmap → Bitmap → Prop}
    {tokens : List String}
    {change : Bitmap → Bitmap}
    {s : Session Disk}
    (redrawn : AllRedraw s.settings tokens change)
    (whole : s.images.Whole)
    (related : ∀ b, relation b (change b)) :
    List.Forall₂ relation (s.images.toList.map Image.bitmap) (s.bitmapsAfter tokens) := by
  rw [bitmapsAfter_of_allRedraw redrawn whole, List.forall₂_map_left_iff,
    List.forall₂_map_right_iff]
  exact List.forall₂_same.mpr fun image _ => related image.bitmap

/-- The rasters of the images after a command line. -/
def rastersAfter (s : Session Disk) (tokens : List String) : List Raster :=
  (s.bitmapsAfter tokens).map Bitmap.raster

theorem rastersAfter_of_allRedraw
    {tokens : List String}
    {change : Bitmap → Bitmap}
    {s : Session Disk}
    (redrawn : AllRedraw s.settings tokens change)
    (whole : s.images.Whole) :
    s.rastersAfter tokens = s.images.toList.map fun image => (change image.bitmap).raster := by
  rw [rastersAfter, bitmapsAfter_of_allRedraw redrawn whole, List.map_map]
  rfl

theorem forall₂_rastersAfter
    {relation : Raster → Raster → Prop}
    {tokens : List String}
    {change : Bitmap → Bitmap}
    {s : Session Disk}
    (redrawn : AllRedraw s.settings tokens change)
    (whole : s.images.Whole)
    (related : ∀ b, relation b.raster (change b).raster) :
    List.Forall₂ relation (s.images.toList.map Image.raster) (s.rastersAfter tokens) := by
  rw [rastersAfter_of_allRedraw redrawn whole, List.forall₂_map_left_iff,
    List.forall₂_map_right_iff]
  exact List.forall₂_same.mpr fun image _ => related image.bitmap

end Session
end Darkroom
