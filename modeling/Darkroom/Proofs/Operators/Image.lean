import Darkroom.Engine.Pixel
import Darkroom.Operators.Image.Catalog
import Darkroom.Proofs.Operators.Plans
import Darkroom.Proofs.Placement

/-!
# What operators on one image look at

An operator decides about one image, and it sees neither the other images nor its position among
them.  Two things could still carry something from one image to the next.  An operator may look at
the number of images, which changes when an image before it was parted; and it may write an option
that later images are brought in line with.

Only operators that print templates look at the number of images, and these part no image.  Only one
operator writes options, and it does so by its arguments alone.

An operator may change the attributes of its image, but none changes how the image is put together
with others.
-/

namespace Darkroom

/-! ## The pixel engine -/

namespace PixelEngine

/-- A result that is no shortage of a resource. -/
def Mild {α : Type} (result : Except EngineFault α) : Prop :=
  ∀ refusal, result = .error refusal → refusal.toFault.isFatal = false

namespace Mild

variable {α : Type}

theorem ok
    (a : α) :
    Mild (.ok a) :=
  nofun

theorem refuse
    (operation : String) :
    Mild (refuse operation : Except EngineFault α) := by
  rintro _ ⟨⟩
  rfl

theorem missed : Mild (missed : Except EngineFault α) := by
  rintro _ ⟨⟩
  rfl

end Mild

theorem crop_mild
    (regions : List Rect)
    (image : Image) :
    Mild (crop regions image) := by
  unfold crop
  split
  · exact .missed
  · exact .ok _
  · exact .ok _

theorem resize_mild
    (size : Size)
    (method : Resampling)
    (image : Image) :
    Mild (resize size method image) := by
  cases method with
  | liquidRescale => exact .refuse _
  | _ => exact .ok _

/-- The pixel engine runs out of nothing. -/
theorem transform_mild
    (image : Image)
    (op : Transform) :
    Mild (transform image op) := by
  cases op with
  | crop regions => exact crop_mild regions image
  | resize size method => exact resize_mild size method image
  | autoGamma | chop | shave | statistic | trim =>
      unfold transform
      dsimp only
      split
      · exact .ok _
      · first | exact .ok _ | exact .missed | exact .refuse _
  | blur kind radius sigma =>
      cases kind with
      | adaptive => exact .refuse _
      | _ => exact .ok _
  | sharpen radius sigma adaptive =>
      cases adaptive with
      | true => exact .refuse _
      | false => exact .ok _
  | _ => first | exact .ok _ | exact .refuse _

end PixelEngine

/-! ## Options that are written and attributes that are kept -/

/-- The plan writes no option. -/
def ImagePlan.WritesNoOption : ImagePlan → Prop
  | .setOption .. => False
  | _ => True

/-- What the plan does itself keeps the placement of every image; the engine may do more. -/
def ImagePlan.KeepsPlacement (image : Image) : ImagePlan → Prop
  | .keep kept => kept.placement = image.placement
  | .setOption _ _ kept => kept.placement = image.placement
  | .print _ => True
  | .apply _ finish => ∀ made, (finish made).placement = made.placement

/-- The plan writes no option and keeps the placement. -/
structure ImagePlan.Plain (image : Image) (plan : ImagePlan) : Prop where
  /-- No option is written. -/
  writesNoOption : plan.WritesNoOption
  /-- The placement is kept. -/
  keepsPlacement : plan.KeepsPlacement image

namespace ImageOperator

open Plans

section

variable (view : View) (image : Image) (inv : Invocation)

variable {image} in
theorem work_plain
    (op : Transform) :
    Plans (ImagePlan.Plain image) (work op) :=
  ok ⟨trivial, fun _ => rfl⟩

variable {image} in
theorem unchanged_plain
    {kept : Image}
    (same : kept.placement = image.placement) :
    Plans (ImagePlan.Plain image) (unchanged kept) :=
  ok ⟨trivial, same⟩

theorem putArtifact_placement
    (key : String)
    (value? : Option String) :
    (putArtifact image key value?).placement = image.placement := by
  cases value? <;> rfl

theorem byGeometry_plain
    (op : Geometry → Transform) :
    Plans (ImagePlan.Plain image) (byGeometry op view image inv) :=
  bind fun _ => work_plain _

theorem byChannelValue_plain
    (op : Float → Transform) :
    Plans (ImagePlan.Plain image) (byChannelValue op view image inv) :=
  bind fun _ => bind fun _ => work_plain _

theorem comparisonColor_plain
    (key : String) :
    Plans (ImagePlan.Plain image) (comparisonColor key view image inv) :=
  ite (bind fun _ => bind fun _ => unchanged_plain rfl) (unchanged_plain rfl)

theorem polaroid_plain :
    Plans (ImagePlan.Plain image) (polaroid view image inv) := by
  unfold polaroid
  extract_lets framed
  have each (angle : Float) : Plans (ImagePlan.Plain image) (framed angle) := by
    dsimp only [framed]
    split
    · exact bind fun _ => work_plain _
    · exact bind fun _ => work_plain _
  exact ite (bind each) (bind each)

theorem identify_plain :
    Plans (ImagePlan.Plain image) (identify view image inv) := by
  unfold identify
  split
  · exact bind fun _ => ok ⟨trivial, trivial⟩
  · exact ok ⟨trivial, trivial⟩

theorem morphology_plain :
    Plans (ImagePlan.Plain image) (morphology view image inv) := by
  have each (asked : String × Int64) : Plans (ImagePlan.Plain image) (do
      let method ← Invocation.keywordOf Morphology asked.1
      let kernel ← inv.second
      if (trimmed kernel).isEmpty then throw (.invalidArgument kernel)
      work (.morphology method asked.2 kernel)) :=
    bind fun _ => bind fun _ => ite (bind fun _ => work_plain _) (work_plain _)
  refine bind fun text => ?_
  dsimp only
  split
  · exact bind fun _ => bind each
  · exact bind each

theorem resizeTo_plain
    (r : Region)
    (method : Resampling) :
    Plans (ImagePlan.Plain image) (resizeTo r image method) :=
  ite (unchanged_plain rfl) (work_plain _)

theorem resizeBy_plain
    (method : Resampling) :
    Plans (ImagePlan.Plain image) (resizeBy method view image inv) :=
  bind fun r => resizeTo_plain image r method

theorem resize_plain :
    Plans (ImagePlan.Plain image) (resize view image inv) :=
  bind fun r => resizeTo_plain image r _

theorem autoOrient_plain :
    Plans (ImagePlan.Plain image) (autoOrient view image inv) := by
  unfold autoOrient
  split
  · exact ok ⟨trivial, fun _ => rfl⟩
  · exact unchanged_plain rfl

theorem extent_plain :
    Plans (ImagePlan.Plain image) (extent view image inv) := by
  refine bind fun r => ?_
  dsimp only
  exact work_plain _

theorem geometry_plain :
    Plans (ImagePlan.Plain image) (geometry view image inv) :=
  ite (bind fun _ => ite (bind fun _ => unchanged_plain rfl) (resize_plain view image inv))
    (unchanged_plain rfl)

theorem levelColors_plain :
    Plans (ImagePlan.Plain image) (levelColors view image inv) := by
  refine bind fun text => ?_
  dsimp only
  refine bind fun black => ?_
  split
  · exact ite (bind fun _ => work_plain _) (bind fun _ => work_plain _)
  · exact bind fun _ => work_plain _

/-- Only one operator on one image writes options, and no other changes the placement. -/
theorem named?_plain
    {name : String}
    {operator : ImageOperator}
    (named : named? name = some operator)
    (other : name ≠ "set") :
    Plans (ImagePlan.Plain image) (operator view image inv) := by
  have everyOne : ∀ entry ∈ all, entry.1 ≠ "set" →
      Plans (ImagePlan.Plain image) (entry.2 view image inv) := by
    have byGeometry := byGeometry_plain view image inv
    have byChannelValue := byChannelValue_plain view image inv
    simp only [all, List.forall_mem_cons, List.not_mem_nil, false_imp_iff, implies_true, and_true,
      ne_eq, String.reduceEq, not_false_eq_true, not_true_eq_false, true_imp_iff, true_and]
    refine ⟨byGeometry _, resizeBy_plain view image inv _, byGeometry _,
      bind fun _ => work_plain _, bind fun _ => bind fun _ => bind fun _ => work_plain _,
      work_plain _, work_plain _, autoOrient_plain view image inv, byChannelValue _,
      ite (bind fun _ => work_plain _) (work_plain _), byGeometry _, bind fun _ => work_plain _,
      byGeometry _, bind fun _ => bind fun _ => work_plain _,
      ite (unchanged_plain rfl) (work_plain _), byGeometry _, bind fun _ => work_plain _,
      work_plain _, bind fun _ => work_plain _, bind fun _ => work_plain _,
      bind fun _ => ite (unchanged_plain rfl) (work_plain _),
      ite (bind fun _ => ite (unchanged_plain rfl) (ok ⟨trivial, fun _ => rfl⟩))
        (bind fun _ => ite (unchanged_plain rfl) (ok ⟨trivial, fun _ => rfl⟩)),
      work_plain _, bind fun _ => work_plain _, bind fun _ => work_plain _,
      bind fun _ => ite (bind fun _ => bind fun _ => work_plain _) (work_plain _),
      bind fun _ => work_plain _, bind fun _ => bind fun _ => work_plain _, unchanged_plain rfl,
      ite (bind fun _ => bind fun _ => work_plain _) (work_plain _), work_plain _,
      bind fun _ => bind fun _ => bind fun _ => work_plain _, bind fun _ => work_plain _,
      byGeometry _, byGeometry _, bind fun _ => bind fun _ => work_plain _, work_plain _,
      work_plain _, bind fun _ => bind fun _ => bind fun _ => work_plain _,
      extent_plain view image inv, ite (bind fun _ => unchanged_plain rfl) (unchanged_plain rfl),
      work_plain _, bind fun _ => bind fun _ => bind fun _ => work_plain _, work_plain _,
      bind fun _ => work_plain _, bind fun _ => bind fun _ => bind fun _ => work_plain _,
      bind fun _ => ite (work_plain _) (unchanged_plain rfl), byGeometry _, byGeometry _,
      geometry_plain view image inv, comparisonColor_plain view image inv _,
      identify_plain view image inv, byGeometry _, resizeBy_plain view image inv _, byGeometry _,
      bind fun _ => work_plain _, levelColors_plain view image inv, bind fun _ => work_plain _,
      resizeBy_plain view image inv _, comparisonColor_plain view image inv _, work_plain _,
      byGeometry _, byGeometry _, byGeometry _, work_plain _, morphology_plain view image inv,
      byGeometry _, work_plain _, ite (bind fun _ => work_plain _) (bind fun _ => work_plain _),
      work_plain _, bind fun _ => work_plain _, bind fun _ => work_plain _, byGeometry _,
      polaroid_plain view image inv, bind fun _ => work_plain _, byGeometry _,
      bind fun _ => work_plain _, byGeometry _,
      ite (bind fun _ => unchanged_plain rfl) (unchanged_plain rfl),
      bind fun _ => ite (bind fun _ => bind fun _ => ok ⟨trivial, fun _ => rfl⟩)
        (ok ⟨trivial, fun _ => rfl⟩),
      resize_plain view image inv, bind fun _ => work_plain _,
      bind fun _ => ite (unchanged_plain rfl) (work_plain _), resizeBy_plain view image inv _,
      resizeBy_plain view image inv _, byGeometry _, byGeometry _, work_plain _, byChannelValue _,
      bind fun _ => work_plain _, byGeometry _, byGeometry _, bind fun _ => work_plain _,
      bind fun _ => work_plain _, bind fun _ => work_plain _, byGeometry _, byChannelValue _,
      bind fun _ => bind fun _ => bind fun _ => work_plain _, bind fun _ => work_plain _,
      byGeometry _, bind fun _ => bind fun _ => bind fun _ => work_plain _, unchanged_plain rfl,
      byGeometry _, ite (bind fun _ => bind fun _ => work_plain _) (work_plain _),
      resizeBy_plain view image inv _, bind fun _ => work_plain _, work_plain _,
      bind fun _ => work_plain _, work_plain _, work_plain _, work_plain _,
      ite (bind fun _ => work_plain _) (unchanged_plain rfl),
      ite (unchanged_plain rfl) (unchanged_plain rfl), work_plain _, byGeometry _,
      unchanged_plain (putArtifact_placement image _ _), bind fun _ => work_plain _,
      bind fun _ => work_plain _, byChannelValue _⟩
  obtain ⟨before, behind, split, -⟩ := List.lookup_eq_some_iff.mp named
  exact everyOne (name, operator) (split ▸ List.mem_append_right _ List.mem_cons_self) other

theorem named?_writesNoOption
    {name : String}
    {operator : ImageOperator}
    (named : named? name = some operator)
    (other : name ≠ "set") :
    Plans ImagePlan.WritesNoOption (operator view image inv) :=
  fun plan decided => (named?_plain view image inv named other plan decided).writesNoOption

theorem set_keepsPlacement :
    Plans (ImagePlan.KeepsPlacement image) (set view image inv) := by
  refine bind fun key => ite (ok rfl) ?_
  split
  · exact ite (bind fun _ => ok (putArtifact_placement image _ _))
      (bind fun _ => ok (putArtifact_placement image _ _))
  · exact ite (bind fun _ => bind fun _ => ok rfl) (ok rfl)

/-- No operator on one image changes the placement, whatever it decides. -/
theorem named?_keepsPlacement
    {name : String}
    {operator : ImageOperator}
    (named : named? name = some operator) :
    Plans (ImagePlan.KeepsPlacement image) (operator view image inv) := by
  by_cases isSet : name = "set"
  · subst isSet
    obtain rfl : set = operator := Option.some.inj named
    exact set_keepsPlacement view image inv
  · exact fun plan decided =>
      (named?_plain view image inv named isSet plan decided).keepsPlacement

end

end ImageOperator

/-- The option that an invocation of `set` writes, with its text, or without one when the option is
removed. -/
def Invocation.optionWritten? (inv : Invocation) : Option (String × Option String) :=
  match inv.first? with
  | none => none
  | some key =>
      if (Text.after? "registry:".toList key.toList).isSome then none
      else match Text.after? "option:".toList key.toList with
        | none => none
        | some name =>
            if inv.normal then inv.second?.map fun value => (String.ofList name, some value)
            else some (String.ofList name, none)

namespace ImageOperator

open Plans

/-- The arguments alone say whether an option is written, and which. -/
theorem set_cases
    (inv : Invocation) :
    (inv.optionWritten? = none ∧
        ∀ view image, Plans ImagePlan.WritesNoOption (set view image inv)) ∨
      ∃ key value?, inv.optionWritten? = some (key, value?) ∧
        ∀ view image,
          set view image inv = .ok (.setOption key value? (putArtifact image key value?)) := by
  unfold Invocation.optionWritten? set Invocation.first Invocation.second
  cases inv.first? with
  | none => exact .inl ⟨rfl, fun _ _ => error _⟩
  | some text =>
      dsimp only
      by_cases registry : (Text.after? "registry:".toList text.toList).isSome
      · refine .inl ⟨if_pos registry, fun view image => ?_⟩
        show Plans _ (if _ then _ else _)
        rw [if_pos registry]
        exact ok trivial
      · rw [if_neg registry]
        cases found : Text.after? "option:".toList text.toList with
        | none => 
          refine .inl ⟨rfl, fun view image => ?_⟩
          show Plans _ (if _ then _ else _)
          rw [if_neg registry, found]
          exact ite (bind fun _ => bind fun _ => ok trivial) (ok trivial)
        | some name =>
            cases inv.normal with
            | true =>
               cases inv.second? with
               | none =>
                  refine .inl ⟨rfl, fun view image => ?_⟩
                  show Plans _ (if _ then _ else _)
                  rw [if_neg registry, found]
                  exact error _
               | some value =>
                  refine .inr ⟨String.ofList name, some value, rfl, fun view image => ?_⟩
                  show (if _ then _ else _) = _
                  rw [if_neg registry, found]
                  rfl
            | false => 
                  refine .inr ⟨String.ofList name, none, rfl, fun view image => ?_⟩
                  show (if _ then _ else _) = _
                  rw [if_neg registry, found]
                  rfl

theorem set_of_optionWritten
    {inv : Invocation}
    {key : String}
    {value? : Option String}
    (written : inv.optionWritten? = some (key, value?))
    (view : View)
    (image : Image) :
    set view image inv = .ok (.setOption key value? (putArtifact image key value?)) := by
  obtain ⟨none, -⟩ | ⟨key', value?', written', plans⟩ := set_cases inv
  · rw [none] at written
    cases written
  · obtain ⟨⟨⟩⟩ := written.symm.trans written'
    exact plans view image

/-! ## The number of images -/

/-- The operators that see the number of images. -/
def counting : List String :=
  ["annotate", "identify", "polaroid", "set"]

/-- Any other operator decides the same whatever the number of images is. -/
theorem named?_of_not_counting
    {name : String}
    {operator : ImageOperator}
    (named : named? name = some operator)
    (other : name ∉ counting)
    (view : View)
    (count : Nat) :
    operator { view with count } = operator view := by
  have everyOne : ∀ entry ∈ all, entry.1 ∉ counting →
      entry.2 { view with count } = entry.2 view := by
    simp only [all, List.forall_mem_cons, List.not_mem_nil, false_imp_iff, implies_true, and_true]
    simp only [counting, List.mem_cons, List.not_mem_nil, String.reduceEq, or_false, or_true,
      not_false_eq_true, not_true_eq_false, false_imp_iff, true_imp_iff, true_and]
    repeat' first | exact rfl | apply And.intro
  obtain ⟨before, behind, split, -⟩ := List.lookup_eq_some_iff.mp named
  exact everyOne (name, operator) (split ▸ List.mem_append_right _ List.mem_cons_self) other

end ImageOperator

/-- The plan leaves one image in the place: it asks for no work, or for work that the pixel engine
refuses. -/
def ImagePlan.KeepsPlace : ImagePlan → Prop
  | .apply op _ => ∀ image, ∃ refusal, PixelEngine.transform image op = .error refusal
  | _ => True

namespace ImageOperator

open Plans

section

variable (view : View) (image : Image) (inv : Invocation)

theorem annotate_keepsPlace :
    Plans ImagePlan.KeepsPlace (annotate view image inv) :=
  bind fun _ => bind fun _ => bind fun _ => ok fun _ => ⟨_, rfl⟩

theorem polaroid_keepsPlace :
    Plans ImagePlan.KeepsPlace (polaroid view image inv) := by
  unfold polaroid
  extract_lets framed
  have each (angle : Float) : Plans ImagePlan.KeepsPlace (framed angle) := by
    dsimp only [framed]
    split
    · exact bind fun _ => ok fun _ => ⟨_, rfl⟩
    · exact bind fun _ => ok fun _ => ⟨_, rfl⟩
  exact ite (bind each) (bind each)

theorem identify_keepsPlace :
    Plans ImagePlan.KeepsPlace (identify view image inv) := by
  unfold identify
  split
  · exact bind fun _ => ok trivial
  · exact ok trivial

theorem set_keepsPlace :
    Plans ImagePlan.KeepsPlace (set view image inv) := by
  refine bind fun key => ite (ok trivial) ?_
  split
  · exact ite (bind fun _ => ok trivial) (bind fun _ => ok trivial)
  · exact ite (bind fun _ => bind fun _ => ok trivial) (ok trivial)

/-- The operators that see the number of images leave it alone. -/
theorem named?_keepsPlace
    {name : String}
    {operator : ImageOperator}
    (named : named? name = some operator)
    (isCounting : name ∈ counting) :
    Plans ImagePlan.KeepsPlace (operator view image inv) := by
  simp only [counting, List.mem_cons, List.not_mem_nil, or_false] at isCounting
  obtain rfl | rfl | rfl | rfl := isCounting
  · obtain rfl : annotate = operator := Option.some.inj named
    exact annotate_keepsPlace view image inv
  · obtain rfl : identify = operator := Option.some.inj named
    exact identify_keepsPlace view image inv
  · obtain rfl : polaroid = operator := Option.some.inj named
    exact polaroid_keepsPlace view image inv
  · obtain rfl : set = operator := Option.some.inj named
    exact set_keepsPlace view image inv

end

end ImageOperator
end Darkroom
