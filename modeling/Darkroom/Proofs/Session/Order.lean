import Darkroom.Engine.Standard
import Darkroom.Proofs.Operators.Image
import Darkroom.Proofs.Operators.Survival
import Darkroom.Proofs.Session.Pass
import Darkroom.Proofs.Settings

/-!
# The order of the images

With the standard engine an operator on one image makes of an image what it makes of it at any other
place in the list: when the images change places, what is made of them changes places in the same
way.

The one way in which an image can have an effect on later ones is an option that is written for it.
Later images are brought in line with the settings, so that option must be one that no attribute of
an image is copied from, or leave those attributes as they were.
-/

namespace Darkroom

/-- The items at some positions. -/
def pick {α : Type} (positions : List Nat) (items : List α) : List α :=
  positions.filterMap (items[·]?)

/-- All positions in their order pick all items. -/
theorem pick_range
    {α : Type}
    (items : List α) :
    pick (List.range items.length) items = items := by
  induction items with
  | nil => rfl
  | cons item rest inductionHypothesis =>
      rw [pick, List.length_cons, List.range_succ_eq_map, List.filterMap_cons, List.filterMap_map]
      exact congrArg (item :: ·) inductionHypothesis

/-- All positions in another order pick as many items as there are. -/
theorem pick_length
    {α : Type}
    {positions : List Nat}
    {items : List α}
    (permutes : positions.Perm (List.range items.length)) :
    (pick positions items).length = items.length :=
  (permutes.filterMap (items[·]?)).length_eq.trans (congrArg List.length (pick_range items))

theorem pick_map
    {α β : Type}
    (positions : List Nat)
    (items : List α)
    (f : α → β) :
    pick positions (items.map f) = (pick positions items).map f := by
  simp [pick, List.map_filterMap]

namespace Session

variable {operator : ImageOperator} {inv : Invocation} {s s' : Session Disk}

/-! ## Visits with the standard engine -/

theorem Visit.made_congr
    {σ : Type}
    {v w : Visit σ}
    (outcome : v.outcome = w.outcome)
    (given : v.given = w.given) :
    v.made = w.made := by
  rw [made, made, product, product, outcome, given]

/-- The outcome of work on an image depends on the plan and the image alone. -/
theorem performOnImage_standard_fst
    (image : Image)
    (plan : ImagePlan)
    (s s' : Session Disk) :
    (s.performOnImage .standard image plan).1 = (s'.performOnImage .standard image plan).1 := by
  cases plan <;> rfl

/-- No work on an image ends the run. -/
theorem performOnImage_standard_survives
    (image : Image)
    (plan : ImagePlan)
    (s : Session Disk) :
    Survives (s.performOnImage .standard image plan).1 := by
  cases plan with
  | apply op finish =>
      refine .map ?_ _
      rintro fault failed
      show fault.isFatal = false
      cases worked : PixelEngine.transform image op with
      | ok outcome => simp [worked, Except.mapError] at failed
      | error refusal =>
          have mild := PixelEngine.transform_mild image op refusal worked
          simp only [worked, Except.mapError, Except.error.injEq] at failed
          rwa [← failed]
  | _ => exact .ok _

/-- A visit sees as many images as the list has. -/
theorem visit_view
    {σ : Type}
    (engine : Engine σ)
    (h : Handle)
    (s : Session σ) :
    view engine { s with images := (s.images.take h).2 } = s.view engine := by
  simp [view, Reel.length]

theorem visit_fatal?
    {name : String}
    (named : ImageOperator.named? name = some operator)
    (h : Handle)
    (image : Image)
    (s : Session Disk) :
    (s.visit .standard operator inv h image).fatal? inv = none := by
  have survives : Survives (s.visit .standard operator inv h image).outcome := by
    simp only [visit, actOnImage]
    split
    · exact performOnImage_standard_survives _ _ _
    · next fault failed =>
      exact .error (ImageOperator.named?_survives _ _ inv named fault failed)
  rw [Visit.fatal?, Visit.fault?]
  cases ended : (s.visit .standard operator inv h image).outcome with
  | ok product => rfl
  | error fault => simp [Option.filter_some, survives fault ended]

/-- What holds of every visit in a session with a property holds of all visits of a pass that keeps
the property. -/
theorem forall_mem_visits
    {σ : Type}
    {engine : Engine σ}
    (property : Session σ → Prop)
    {holdsOf : Visit σ → Prop}
    (kept : ∀ s h image, property s →
      property ((s.visit engine operator inv h image).closed inv h))
    (each : ∀ s h image, property s → holdsOf (s.visit engine operator inv h image))
    {s : Session σ}
    (holds : property s)
    (handles : List Handle) :
    ∀ v ∈ s.visits engine operator inv handles, holdsOf v := by
  induction handles generalizing s with
  | nil => simp [visits]
  | cons h rest inductionHypothesis =>
      rw [visits]
      split
      · exact inductionHypothesis holds
      · next image found =>
        dsimp only
        split
        · rintro v (_ | ⟨_, ⟨⟩⟩)
          exact each s h image holds
        · rintro v (_ | ⟨_, later⟩)
          · exact each s h image holds
          · exact inductionHypothesis (kept s h image holds) v later

theorem visits_fatal?
    {name : String}
    (named : ImageOperator.named? name = some operator)
    (s : Session Disk)
    (handles : List Handle) :
    ∀ v ∈ s.visits .standard operator inv handles, v.fatal? inv = none :=
  forall_mem_visits (fun _ => True) (fun _ _ _ => id)
    (fun s h image _ => visit_fatal? named h image s) trivial handles

/-! ## Passes that treat all images alike -/

/-- A property of sessions that a pass keeps, and that fixes what the operator makes of an image. -/
structure Uniform (operator : ImageOperator) (inv : Invocation)
    (property : Session Disk → Prop) : Prop where
  /-- A visit keeps it. -/
  kept : ∀ s h image, property s →
    property ((s.visit .standard operator inv h image).closed inv h)
  /-- It fixes the attributes that images take up. -/
  sync : ∀ s s', property s → property s' →
    s.settings.image.sync = s'.settings.image.sync
  /-- It fixes what the operator decides. -/
  decides : ∀ s s' image, property s → property s' →
    operator (s.view .standard) image inv = operator (s'.view .standard) image inv

namespace Uniform

variable {property : Session Disk → Prop}

/-- An image becomes the same whatever came before it and wherever its place is. -/
theorem made_eq
    (uniform : Uniform operator inv property)
    (holds : property s)
    (holds' : property s')
    (h h' : Handle)
    (image : Image) :
    (s.visit .standard operator inv h image).made =
      (s'.visit .standard operator inv h' image).made := by
  have sync := uniform.sync s s' holds holds'
  refine Visit.made_congr ?_ (congrFun sync image)
  simp only [visit, actOnImage, visit_view]
  rw [sync, uniform.decides s s' _ holds holds']
  split
  · exact performOnImage_standard_fst _ _ _ _
  · rfl

/-- All visits of a pass make of their images what a visit at the start makes of them. -/
theorem visits_made
    (uniform : Uniform operator inv property)
    (holds : property s)
    (holds' : property s')
    (handles : List Handle) :
    ∀ v ∈ s'.visits .standard operator inv handles,
      v.made = (s.visit .standard operator inv default v.found).made :=
  forall_mem_visits property uniform.kept
    (fun _ h image reached => uniform.made_eq reached holds h default image) holds' handles

end Uniform

/-- A pass with the standard engine visits all images and puts together what becomes of them. -/
theorem applyToImages_standard
    {option : String}
    (first? second? : Option String)
    (named : ImageOperator.named? (Invocation.of option first? second?).name = some operator)
    (whole : s.images.Whole) :
    let visits := s.visits .standard operator (.of option first? second?) s.images.order
    visits.map Visit.found = s.images.toList ∧
      (s.applyToImages .standard option first? second?).2.images.toList =
        (visits.map Visit.made).flatten := by
  intro visits
  obtain ⟨visited, verdict⟩ :
      Visited .standard operator (.of option first? second?) [] s.images.toList s visits
          (s.passOver .standard operator (.of option first? second?) s.images.order).2 ∧
        Verdict (.of option first? second?) s.images.toList visits
          (s.passOver .standard operator (.of option first? second?) s.images.order).1 :=
    visits_visited .standard operator _ [] s.images.order whole rfl rfl rfl
  have length : visits.length = s.images.toList.length := by
    rcases verdict with ⟨-, length, -⟩ | ⟨earlier, last, fault, stopped, -, failed, isFatal, -⟩
    · exact length
    · have last_mem : last ∈ visits := stopped ▸ List.mem_append_right _ List.mem_cons_self
      have mild := visits_fatal? named s _ last last_mem
      rw [Visit.fatal?_eq_some_iff.mpr ⟨fault, failed, isFatal, rfl⟩] at mild
      cases mild
  have found : visits.map Visit.found = s.images.toList := by
    rw [visited.inOrder, length, List.take_length]
  refine ⟨found, ?_⟩
  by_cases empty : s.images.isEmpty
  · have none : s.images.order = [] := List.isEmpty_iff.mp empty
    have ended : (s.applyToImages .standard option first? second?).2.images = s.images := by
      simp [applyToImages, named, empty, settle]
      rfl
    simp [ended, visits, none, Session.visits, Reel.toList]
  · have pass : s.applyToImages .standard option first? second? =
        s.passOver .standard operator (.of option first? second?) s.images.order := by
      simp [applyToImages, named, empty]
    rw [pass, visited.images, length, List.drop_length, List.append_nil, List.nil_append]
    rfl

/-- Where all images are treated alike, a pass makes of each what a visit at the start makes of
it. -/
theorem Uniform.pass_made
    {property : Session Disk → Prop}
    {option : String}
    {first? second? : Option String}
    (named : ImageOperator.named? (Invocation.of option first? second?).name = some operator)
    (uniform : Uniform operator (.of option first? second?) property)
    (holds : property s)
    (holds' : property s')
    (whole' : s'.images.Whole) :
    (s'.visits .standard operator (.of option first? second?) s'.images.order).map Visit.made =
      s'.images.toList.map fun image =>
        (s.visit .standard operator (.of option first? second?) default image).made := by
  rw [← (applyToImages_standard first? second? named whole').1, List.map_map]
  exact List.map_congr_left (uniform.visits_made holds holds' _)

/-! ## What carries from image to image -/

/-- After a visit the settings and the world are those in which the operator ended. -/
theorem visit_closed_after
    {σ : Type}
    (engine : Engine σ)
    (operator : ImageOperator)
    (inv : Invocation)
    (h : Handle)
    (image : Image)
    (s : Session σ) :
    let v := s.visit engine operator inv h image
    (v.closed inv h).settings = v.after.settings ∧ (v.closed inv h).world = v.after.world := by
  intro v
  rw [Visit.closed, Visit.reported]
  cases v.product <;> cases v.fault? <;> exact ⟨rfl, rfl⟩

/-- Unless an option is written, a visit leaves the settings and the world as they are. -/
theorem visit_closed_settings
    (operator : ImageOperator)
    (inv : Invocation)
    (h : Handle)
    (image : Image)
    (s : Session Disk)
    (quiet : ∀ image,
      Plans ImagePlan.WritesNoOption (operator (s.view .standard) image inv)) :
    ((s.visit .standard operator inv h image).closed inv h).settings = s.settings ∧
      ((s.visit .standard operator inv h image).closed inv h).world = s.world := by
  obtain ⟨settings, world⟩ := visit_closed_after .standard operator inv h image s
  rw [settings, world]
  simp only [visit, actOnImage, visit_view]
  split
  · next plan decided =>
    cases plan with
    | setOption key value? image => exact (quiet _ _ decided).elim
    | _ => exact ⟨rfl, rfl⟩
  · exact ⟨rfl, rfl⟩

/-- Operators that do not see the number of images treat all images alike. -/
theorem Uniform.of_not_counting
    {name : String}
    (named : ImageOperator.named? name = some operator)
    (other : name ∉ ImageOperator.counting)
    (settings : Settings)
    (world : Disk) :
    Uniform operator inv fun t => t.settings = settings ∧ t.world = world where
  kept t h image reached := by
    have isNotSet : name ≠ "set" := by
      rintro rfl
      exact other (by decide)
    have still := visit_closed_settings operator inv h image t fun image =>
      ImageOperator.named?_writesNoOption _ image inv named isNotSet
    rwa [still.1, still.2]
  sync t t' reached reached' := by rw [reached.1, reached'.1]
  decides t t' image reached reached' := by
    have sees : t'.view .standard = { t.view .standard with count := t'.images.length } := by
      simp only [view, reached.1, reached.2, reached'.1, reached'.2]
    rw [sees]
    exact (congrFun₂ (ImageOperator.named?_of_not_counting named other _ _) image inv).symm

/-- A visit that leaves one image in the place leaves the number of images. -/
theorem visit_closed_length
    (operator : ImageOperator)
    (inv : Invocation)
    (h : Handle)
    (image : Image)
    (s : Session Disk)
    (keeps : ∀ image, Plans ImagePlan.KeepsPlace (operator (s.view .standard) image inv)) :
    ((s.visit .standard operator inv h image).closed inv h).images.length = s.images.length := by
  obtain ⟨made, product⟩ :
      ∃ made, (s.visit .standard operator inv h image).product = .same made := by
    simp only [Visit.product, visit, actOnImage, visit_view]
    cases decided : operator (s.view .standard) (s.settings.image.sync image) inv with
    | error fault => exact ⟨_, rfl⟩
    | ok plan =>
        have kept := keeps _ plan decided
        cases plan with
        | apply op finish =>
            obtain ⟨refusal, refused⟩ := kept (s.settings.image.sync image)
            refine ⟨s.settings.image.sync image, ?_⟩
            simp [performOnImage, Engine.standard, refused, Except.mapError, Except.map,
              Visit.given]
        | _ => exact ⟨_, rfl⟩
  obtain ⟨settings, printed, world, reported⟩ :=
    visit_reported_frame Engine.standard operator inv h image s
  rw [Visit.closed, product, reported]
  simp [place, Reel.restore, Reel.length]

/-- Operators that see the number of images leave it alone, and treat all images alike unless they
write an option. -/
theorem Uniform.of_counting
    {name : String}
    (named : ImageOperator.named? name = some operator)
    (isCounting : name ∈ ImageOperator.counting)
    (quiet : name = "set" → inv.optionWritten? = none)
    (settings : Settings)
    (world : Disk)
    (length : Nat) :
    Uniform operator inv fun t =>
      (t.settings = settings ∧ t.world = world) ∧ t.images.length = length where
  kept t h image reached := by
    have still := visit_closed_settings operator inv h image t fun image => by
      by_cases isSet : name = "set"
      · subst isSet
        obtain rfl : ImageOperator.set = operator := Option.some.inj named
        obtain ⟨-, quiet⟩ | ⟨key, value?, written, -⟩ := ImageOperator.set_cases inv
        · exact quiet _ _
        · rw [quiet rfl] at written
          cases written
      · exact ImageOperator.named?_writesNoOption _ image inv named isSet
    have length := visit_closed_length operator inv h image t fun image =>
      ImageOperator.named?_keepsPlace _ image inv named isCounting
    rwa [still.1, still.2, length]
  sync t t' reached reached' := by rw [reached.1.1, reached'.1.1]
  decides t t' image reached reached' := by
    simp only [view, reached.1.1, reached.1.2, reached.2, reached'.1.1, reached'.1.2, reached'.2]

/-- An option that leaves the attributes of images alone is written for all images alike. -/
theorem Uniform.of_optionWritten
    {key : String}
    {value? : Option String}
    (written : inv.optionWritten? = some (key, value?))
    (settings : Settings)
    (spares : (settings.putOption key value?).image.sync = settings.image.sync) :
    Uniform .set inv fun t =>
      t.settings = settings ∨ t.settings = settings.putOption key value? where
  kept t h image reached := by
    have after : ((t.visit .standard .set inv h image).closed inv h).settings =
        t.settings.putOption key value? := by
      rw [(visit_closed_after .standard .set inv h image t).1]
      simp only [visit, actOnImage, ImageOperator.set_of_optionWritten written]
      rfl
    rw [after]
    obtain same | same := reached
    · exact .inr (by rw [same])
    · exact .inr (by rw [same, Settings.putOption_putOption])
  sync t t' reached reached' := by
    obtain same | same := reached <;> obtain same' | same' := reached' <;>
      simp only [same, same', spares]
  decides t t' image reached reached' := by
    rw [ImageOperator.set_of_optionWritten written, ImageOperator.set_of_optionWritten written]

/-! ## Lists in another order -/

/-- Sessions with as many images, and with nothing else different, are treated alike. -/
theorem exists_uniform
    {name : String}
    (named : ImageOperator.named? name = some operator)
    (spares : name = "set" → ∀ key value?, inv.optionWritten? = some (key, value?) →
      (s.settings.putOption key value?).image.sync = s.settings.image.sync)
    (alike : s.Alike s')
    (length : s'.images.length = s.images.length) :
    ∃ property, Uniform operator inv property ∧ property s ∧ property s' := by
  obtain ⟨images, rfl⟩ := alike
  by_cases isCounting : name ∈ ImageOperator.counting
  · by_cases writes : name = "set" ∧ inv.optionWritten? ≠ none
    · obtain ⟨rfl, writes⟩ := writes
      obtain ⟨⟨key, value?⟩, written⟩ := Option.ne_none_iff_exists'.mp writes
      obtain rfl : ImageOperator.set = operator := Option.some.inj named
      exact ⟨_, .of_optionWritten written s.settings (spares rfl key value? written),
        .inl rfl, .inl rfl⟩
    · have quiet : name = "set" → inv.optionWritten? = none := by
        simpa using writes
      exact ⟨_, .of_counting named isCounting quiet s.settings s.world s.images.length,
        ⟨⟨rfl, rfl⟩, rfl⟩, ⟨⟨rfl, rfl⟩, length⟩⟩
  · exact ⟨_, .of_not_counting named isCounting s.settings s.world, ⟨rfl, rfl⟩, ⟨rfl, rfl⟩⟩

/-- When the images of the list change places, what the operator makes of them changes places in the
same way, if no option is written that images take up. -/
theorem images_treated_alike
    {option : String}
    (first? second? : Option String)
    (named : ImageOperator.named? (Invocation.of option first? second?).name = some operator)
    (whole : s.images.Whole)
    (spares : (Invocation.of option first? second?).name = "set" → ∀ key value?,
      (Invocation.of option first? second?).optionWritten? = some (key, value?) →
      (s.settings.putOption key value?).image.sync = s.settings.image.sync)
    (alike : s.Alike s')
    (whole' : s'.images.Whole)
    {positions : List Nat}
    (permutes : positions.Perm (List.range s.images.toList.length))
    (permuted : s'.images.toList = pick positions s.images.toList) :
    let visits := s.visits .standard operator (.of option first? second?) s.images.order
    visits.map Visit.found = s.images.toList ∧
      (s.applyToImages .standard option first? second?).2.images.toList =
        (visits.map Visit.made).flatten ∧
      (s'.applyToImages .standard option first? second?).2.images.toList =
        (pick positions (visits.map Visit.made)).flatten := by
  intro visits
  have length : s'.images.length = s.images.length := by
    rw [← whole'.wellFormed.whole_iff.mp whole', ← whole.wellFormed.whole_iff.mp whole, permuted,
      pick_length permutes]
  obtain ⟨property, uniform, holds, holds'⟩ := exists_uniform named spares alike length
  obtain ⟨found, made⟩ := applyToImages_standard first? second? named whole
  refine ⟨found, made, ?_⟩
  rw [(applyToImages_standard first? second? named whole').2,
    uniform.pass_made named holds holds' whole', permuted,
    uniform.pass_made named holds holds whole, pick_map]

/-- Two images change places while an option is written that no image takes up. -/
theorem caption_on_swapped_images :
    let inv := Invocation.of "-set" (some "option:caption") (some "dawn")
    let second : Image := { (default : Image) with filename := "second" }
    let s : Session Disk := { images := .ofList [default, second], world := {} }
    let s' : Session Disk := { s with images := .ofList [second, default] }
    let visits := s.visits .standard .set inv s.images.order
    ImageOperator.named? inv.name = some .set ∧ s.images.Whole ∧
      (inv.name = "set" → ∀ key value?, inv.optionWritten? = some (key, value?) →
        (s.settings.putOption key value?).image.sync = s.settings.image.sync) ∧
      s.Alike s' ∧ s'.images.Whole ∧ [1, 0].Perm (List.range s.images.toList.length) ∧
      s'.images.toList = pick [1, 0] s.images.toList ∧
      (s'.applyToImages .standard "-set" (some "option:caption") (some "dawn")).2.images.toList =
        (pick [1, 0] (visits.map Visit.made)).flatten := by
  intro inv second s s' visits
  have named : ImageOperator.named? inv.name = some .set := rfl
  have whole : s.images.Whole := .ofList _
  have whole' : s'.images.Whole := .ofList _
  have spares : inv.name = "set" → ∀ key value?, inv.optionWritten? = some (key, value?) →
      (s.settings.putOption key value?).image.sync = s.settings.image.sync := by
    intro _ key value? written
    obtain ⟨⟨⟩⟩ : some ("caption", some "dawn") = some (key, value?) := written
    exact s.settings.sync_putOption (by decide) _
  have alike : s.Alike s' := ⟨_, rfl⟩
  have permutes : [1, 0].Perm (List.range s.images.toList.length) := by decide
  have permuted : s'.images.toList = pick [1, 0] s.images.toList := rfl
  exact ⟨named, whole, spares, alike, whole', permutes, permuted,
    (images_treated_alike _ _ named whole spares alike whole' permutes permuted).2.2⟩

/-- An option that images take up is written while the first of two equal images is worked on, and
the second has taken it up already.  So it matters which of them comes first. -/
theorem gravity_reaches_the_second_image :
    let inv := Invocation.of "-set" (some "option:gravity") (some "East")
    let s : Session Disk := { images := .ofList [default, default], world := {} }
    let visits := s.visits .standard .set inv s.images.order
    ImageOperator.named? inv.name = some .set ∧ s.images.Whole ∧ s.Alike s ∧
      [1, 0].Perm (List.range s.images.toList.length) ∧
      s.images.toList = pick [1, 0] s.images.toList ∧
      ¬ (s.applyToImages .standard "-set" (some "option:gravity") (some "East")).2.images.toList =
        (pick [1, 0] (visits.map Visit.made)).flatten := by
  intro inv s visits
  refine ⟨rfl, .ofList _, .refl s, by decide, rfl, fun same => ?_⟩
  have gravities := congrArg (List.map Image.gravity) same
  revert gravities
  decide

end Session
end Darkroom
