import Darkroom.Operators.List
import Darkroom.Proofs.Operators.Plans
import Darkroom.Proofs.Reel.Rearrangement

/-!
# What operators on the list can decide

An operator on the list decides, and some decisions come with a list that is to take the place of
the list there is.  Every such list is whole when the list there is is whole, and it holds none but
images that were there; so do the images that the engine is given.  A list that is put in place
because the operator fails holds the images that were there, in their order.

Most operators only choose work for the engine, so what holds of all such work holds of what they
decide.
-/

namespace Darkroom

/-- The list that the plan puts in place, if there is one, is whole. -/
def ListPlan.KeepsWhole : ListPlan → Prop
  | .rearrange images => images.Whole
  | .refuse images _ => images.Whole
  | _ => True

/-- The engine is given images of the list, and the list that the plan puts in place, if there is
one, is whole and holds none but images of the list. -/
def ListPlan.Picks (images : Reel Image) : ListPlan → Prop
  | .assembleFrom operands _ => operands ⊆ images.toList
  | .rearrange kept => images.Picked kept
  | .refuse kept _ => images.Picked kept
  | _ => True

/-- When it fails, the plan leaves the list with these images: it is no work that goes from image to
image, and a list put in place by a refusal holds them. -/
def ListPlan.FailsWith (items : List Image) : ListPlan → Prop
  | .refuse images _ => images.toList = items
  | .remap .. => False
  | _ => True

/-- When it succeeds, the plan does something beside the list and leaves the list alone. -/
def ListPlan.BesideList : ListPlan → Prop
  | .limit .. => True
  | .print _ => True
  | .write _ rename => rename = false
  | _ => False

/-- If a plan comes out, it keeps the list whole. -/
def PlansWhole (decision : Except Fault ListPlan) : Prop :=
  ∀ plan, decision = .ok plan → plan.KeepsWhole

/-- All work for the engine has a property. -/
structure ListPlan.OfWork (property : ListPlan → Prop) : Prop where
  /-- Work on all images has it. -/
  all : ∀ op, property (.assemble op)
  /-- Work on some images has it. -/
  some : ∀ operands op, property (.assembleFrom operands op)

/-- All work for the engine on images of a list has a property. -/
structure ListPlan.OfWorkOn (items : List Image) (property : ListPlan → Prop) : Prop where
  /-- Work on all images has it. -/
  all : ∀ op, property (.assemble op)
  /-- Work on some of the images has it. -/
  some : ∀ operands op, operands ⊆ items → property (.assembleFrom operands op)

theorem ListPlan.OfWork.on
    {property : ListPlan → Prop}
    (ofWork : OfWork property)
    (items : List Image) :
    OfWorkOn items property :=
  ⟨ofWork.all, fun operands op _ => ofWork.some operands op⟩

theorem ListPlan.picks_ofWorkOn
    (images : Reel Image) :
    OfWorkOn images.toList (Picks images) :=
  ⟨fun _ => trivial, fun _ _ given => given⟩

theorem ListPlan.failsWith_ofWork
    (items : List Image) :
    OfWork (FailsWith items) :=
  ⟨fun _ => trivial, fun _ _ => trivial⟩

theorem ListPlan.keepsWhole_of_picks
    {images : Reel Image}
    {plan : ListPlan}
    (picks : plan.Picks images) :
    plan.KeepsWhole := by
  cases plan with
  | rearrange kept => exact picks.whole
  | refuse kept fault => exact picks.whole
  | _ => trivial

namespace ListOperator

open Plans

/-! ## Operators that leave the list to the engine -/

section

variable {property : ListPlan → Prop} {images : Reel Image}
  (ofWork : ListPlan.OfWorkOn images.toList property) (view : View) (inv : Invocation)

include ofWork

theorem work_plans
    (op : Assembly) :
    Plans property (work op) :=
  ok (ofWork.all op)

theorem workFrom_plans
    (positions : List Nat)
    (op : Assembly) :
    Plans property (workFrom images positions op) := by
  unfold workFrom
  split
  · next operands copied => exact ok (ofWork.some _ op (Reel.copies?_subset copied))
  · exact error _

theorem inverseFourier_plans :
    Plans property (inverseFourier view images inv) := by
  unfold inverseFourier
  split
  · exact error _
  · exact workFrom_plans ofWork _ _

theorem lookup_plans :
    Plans property (lookup view images inv) := by
  unfold lookup
  split
  · exact error _
  · exact workFrom_plans ofWork _ _

theorem morph_plans :
    Plans property (morph view images inv) := by
  refine bind fun text => bind fun frames => ?_
  split
  · exact bind fun _ => work_plans ofWork _
  · exact work_plans ofWork _

theorem composite_plans :
    Plans property (composite view images inv) := by
  unfold composite
  split
  · exact error _
  · split
    · split
      exact workFrom_plans ofWork _ _
    · exact error _

theorem compositeLayers_plans :
    Plans property (compositeLayers view images) := by
  unfold compositeLayers
  split
  · exact error _
  · split
    exact workFrom_plans ofWork _ _

theorem layers_plans :
    Plans property (layers view images inv) := by
  refine bind fun method => ?_
  split
  · exact compositeLayers_plans ofWork view
  · exact work_plans ofWork _

end

/-! ## Operators that rearrange the list -/

variable (view : View) {images : Reel Image} (inv : Invocation)

/-- The last image put back at the end makes up the old list. -/
theorem push_removeLast_toList
    (whole : images.Whole)
    {image : Image}
    {others : Reel Image}
    (removed : images.removeLast = (some image, others)) :
    (others.push image).2.toList = images.toList := by
  rw [← whole.removeLast_toList removed]
  exact (whole.of_removeLast removed).extend_toList [image]

/-- The last image and the others were there. -/
theorem removeLast_picked
    (whole : images.Whole)
    {image : Image}
    {others : Reel Image}
    (removed : images.removeLast = (some image, others)) :
    images.Picked others ∧ image ∈ images.toList := by
  have picked := whole.picked_removeLast
  rw [removed] at picked
  exact ⟨picked, whole.removeLast_toList removed ▸ List.mem_append_right _ List.mem_cons_self⟩

theorem remap_picks
    (images : Reel Image) :
    Plans (ListPlan.Picks images) (remap view images inv) := by
  unfold remap
  split
  · exact bind fun _ => ok trivial
  · exact work_plans (ListPlan.picks_ofWorkOn images) _

theorem removeAll_picked
    (whole : images.Whole)
    (positions : List Nat) :
    images.Picked (removeAll images positions) := by
  unfold removeAll
  induction (positions.mergeSort (· ≤ ·)).eraseReps with
  | nil => exact whole.picked_self
  | cons position rest inductionHypothesis =>
      exact inductionHypothesis.trans (inductionHypothesis.whole.picked_remove position)

theorem delete_picks
    (whole : images.Whole) :
    Plans (ListPlan.Picks images) (delete view images inv) := by
  unfold delete
  split
  · exact bind fun _ => bind fun positions => ok (removeAll_picked whole positions)
  · exact ok whole.picked_removeLast

theorem foldl_extend_picked
    (whole : images.Whole)
    {copies : List Image}
    (known : copies ⊆ images.toList)
    (times : Nat) :
    images.Picked ((List.replicate times copies).foldl Reel.extend images) := by
  induction times generalizing images with
  | zero => exact whole.picked_self
  | succ times inductionHypothesis =>
      have once := whole.picked_extend known
      have still : copies ⊆ (images.extend copies).toList := by
        rw [whole.extend_toList]
        exact List.subset_append_right _ _
      exact once.trans (inductionHypothesis once.whole still)

theorem duplicate_picks
    (whole : images.Whole) :
    Plans (ListPlan.Picks images) (duplicate view images inv) := by
  unfold duplicate
  extract_lets copyAll
  have each : ∀ asked, Plans (ListPlan.Picks images) (copyAll asked) := by
    rintro ⟨count, positions⟩
    simp only [copyAll]
    split
    · next copies copied =>
      exact ok (foldl_extend_picked whole (Reel.copies?_subset copied) _)
    · exact error _
  split
  · exact bind fun _ => bind each
  · exact bind each

theorem insert_picks
    (whole : images.Whole) :
    Plans (ListPlan.Picks images) (insert view images inv) := by
  unfold insert
  extract_lets moveTo
  have each : ∀ index, Plans (ListPlan.Picks images) (moveTo index) := by
    intro index
    simp only [moveTo]
    split
    · exact error _
    · next image others removed =>
      obtain ⟨others', known⟩ := removeLast_picked whole removed
      split
      · next inserted placed =>
        obtain ⟨-, within⟩ := Option.ite_none_left_eq_some.mp placed
        have subset := others'.whole.insert_subset within
        exact ok ⟨others'.whole.insert within,
          List.Subset.trans subset (List.cons_subset.mpr ⟨known, others'.subset⟩)⟩
      · refine ok ⟨others'.whole.push image, ?_⟩
        rw [push_removeLast_toList whole removed]
        exact List.Subset.refl _
  split
  · exact bind fun _ => bind each
  · exact bind each

theorem swap_picks
    (whole : images.Whole) :
    Plans (ListPlan.Picks images) (swap view images inv) := by
  refine bind fun ⟨p, q⟩ => ?_
  dsimp only
  split
  · split
    · exact ok whole.picked_self
    · split
      · next swapped => exact ok (whole.picked_swap swapped)
      · exact error _
  · exact error _

/-! ## Operators that fail -/

theorem remap_failsWith
    (images : Reel Image)
    (items : List Image)
    (shared : inv.normal = false) :
    Plans (ListPlan.FailsWith items) (remap view images inv) := by
  unfold remap
  rw [shared]
  exact work_plans ((ListPlan.failsWith_ofWork items).on images.toList) _

theorem delete_failsWith
    (images : Reel Image)
    (items : List Image) :
    Plans (ListPlan.FailsWith items) (delete view images inv) := by
  unfold delete
  split
  · exact bind fun _ => bind fun _ => ok trivial
  · exact ok trivial

theorem duplicate_failsWith
    (images : Reel Image)
    (items : List Image) :
    Plans (ListPlan.FailsWith items) (duplicate view images inv) := by
  unfold duplicate
  extract_lets copyAll
  have each : ∀ asked, Plans (ListPlan.FailsWith items) (copyAll asked) := by
    rintro ⟨count, positions⟩
    simp only [copyAll]
    split
    · exact ok trivial
    · exact error _
  split
  · exact bind fun _ => bind each
  · exact bind each

theorem insert_failsWith
    (whole : images.Whole) :
    Plans (ListPlan.FailsWith images.toList) (insert view images inv) := by
  unfold insert
  extract_lets moveTo
  have each : ∀ index, Plans (ListPlan.FailsWith images.toList) (moveTo index) := by
    intro index
    simp only [moveTo]
    split
    · exact error _
    · next image others removed =>
      split
      · exact ok trivial
      · exact ok (push_removeLast_toList whole removed)
  split
  · exact bind fun _ => bind each
  · exact bind each

theorem swap_failsWith
    (images : Reel Image)
    (items : List Image) :
    Plans (ListPlan.FailsWith items) (swap view images inv) := by
  refine bind fun ⟨p, q⟩ => ?_
  dsimp only
  split
  · split
    · exact ok trivial
    · split
      · exact ok trivial
      · exact error _
  · exact error _

/-! ## The table -/

/-- Every operator on the list keeps it whole and makes up no images. -/
theorem named?_picks
    {name : String}
    {operator : ListOperator}
    (named : named? name = some operator)
    (whole : images.Whole) :
    Plans (ListPlan.Picks images) (operator view images inv) := by
  have work := ListPlan.picks_ofWorkOn images
  have everyOne : ∀ entry ∈ all, Plans (ListPlan.Picks images) (entry.2 view images inv) := by
    simp only [all, List.forall_mem_cons, List.not_mem_nil, false_imp_iff, implies_true, and_true]
    refine ⟨work_plans work _, work_plans work _, bind fun _ => work_plans work _,
      lookup_plans work view inv, work_plans work _, work_plans work _,
      composite_plans work view inv, work_plans work _, delete_picks view inv whole,
      duplicate_picks view inv whole, bind fun _ => work_plans work _, work_plans work _,
      work_plans work _, bind fun _ => work_plans work _, lookup_plans work view inv,
      inverseFourier_plans work view inv, insert_picks view inv whole,
      layers_plans work view inv, bind fun _ => bind fun _ => bind fun _ => ok trivial,
      work_plans work _, morph_plans work view inv, work_plans work _,
      bind fun _ => bind fun _ => ok trivial, remap_picks view inv _,
      ok whole.picked_reverse, bind fun _ => bind fun _ => work_plans work _,
      swap_picks view inv whole, bind fun _ => ok trivial⟩
  obtain ⟨before, behind, split, -⟩ := List.lookup_eq_some_iff.mp named
  exact everyOne (name, operator) (split ▸ List.mem_append_right _ List.mem_cons_self)

theorem named?_plansWhole
    {name : String}
    {operator : ListOperator}
    (named : named? name = some operator)
    (whole : images.Whole) :
    PlansWhole (operator view images inv) :=
  fun plan decided =>
    ListPlan.keepsWhole_of_picks (named?_picks view inv named whole plan decided)

/-- An operator on the list that fails leaves the images it found, unless it is the one that works
from image to image. -/
theorem named?_failsWith
    {name : String}
    {operator : ListOperator}
    (named : named? name = some operator)
    (shared : name = "remap" → inv.normal = false)
    (whole : images.Whole) :
    Plans (ListPlan.FailsWith images.toList) (operator view images inv) := by
  have work := (ListPlan.failsWith_ofWork images.toList).on images.toList
  have everyOne : ∀ entry ∈ all, (entry.1 = "remap" → inv.normal = false) →
      Plans (ListPlan.FailsWith images.toList) (entry.2 view images inv) := by
    simp only [all, List.forall_mem_cons, List.not_mem_nil, false_imp_iff, implies_true, and_true]
    refine ⟨fun _ => work_plans work _, fun _ => work_plans work _,
      fun _ => bind fun _ => work_plans work _, fun _ => lookup_plans work view inv,
      fun _ => work_plans work _, fun _ => work_plans work _,
      fun _ => composite_plans work view inv, fun _ => work_plans work _,
      fun _ => delete_failsWith view inv _ _, fun _ => duplicate_failsWith view inv _ _,
      fun _ => bind fun _ => work_plans work _, fun _ => work_plans work _,
      fun _ => work_plans work _, fun _ => bind fun _ => work_plans work _,
      fun _ => lookup_plans work view inv, fun _ => inverseFourier_plans work view inv,
      fun _ => insert_failsWith view inv whole, fun _ => layers_plans work view inv,
      fun _ => bind fun _ => bind fun _ => bind fun _ => ok trivial, fun _ => work_plans work _,
      fun _ => morph_plans work view inv, fun _ => work_plans work _,
      fun _ => bind fun _ => bind fun _ => ok trivial,
      fun shared => remap_failsWith view inv _ _ (shared trivial), fun _ => ok trivial,
      fun _ => bind fun _ => bind fun _ => work_plans work _, fun _ => swap_failsWith view inv _ _,
      fun _ => bind fun _ => ok trivial⟩
  obtain ⟨before, behind, split, -⟩ := List.lookup_eq_some_iff.mp named
  exact everyOne (name, operator)
    (split ▸ List.mem_append_right _ List.mem_cons_self) shared

/-- The operator that writes wants the images written to the path it is given, and renamed unless it
is taken back. -/
theorem named?_write
    (view : View)
    (images : Reel Image)
    {operator : ListOperator}
    (named : named? "write" = some operator) :
    Plans (fun plan => ∃ request : WriteRequest, inv.first? = some request.destination ∧
        plan = .write request inv.normal)
      (operator view images inv) := by
  obtain rfl : write = operator := Option.some.inj named
  unfold write Invocation.first
  split
  · next path given => exact ok ⟨_, given, rfl⟩
  · exact error _

/-- A limit, a text that is printed and a write that does not rename are work beside the list. -/
theorem named?_besideList
    (view : View)
    (images : Reel Image)
    {name : String}
    {operator : ListOperator}
    (named : named? name = some operator)
    (beside : name = "print" ∨ name = "limit" ∨ (name = "write" ∧ inv.normal = false)) :
    Plans ListPlan.BesideList (operator view images inv) := by
  obtain rfl | rfl | ⟨rfl, kept⟩ := beside
  · obtain rfl : print = operator := Option.some.inj named
    exact bind fun _ => bind fun _ => ok trivial
  · obtain rfl : limit = operator := Option.some.inj named
    exact bind fun _ => bind fun _ => bind fun _ => ok trivial
  · obtain rfl : write = operator := Option.some.inj named
    exact bind fun _ => ok kept

end ListOperator
end Darkroom
