import Darkroom.Listing
import Darkroom.Operators.Image.Catalog
import Darkroom.Operators.List
import Darkroom.Operators.Setting

/-!
# Decisions never run out

Only the exhaustion of a resource is fatal, and only an engine can report that.  An operator or a
setting that cannot decide gives a fault that the run survives: an argument that is missing or does
not parse, a name that nobody knows, an image or a file that is not there.
-/

namespace Darkroom

/-- If a fault comes out instead of a decision, it is not fatal. -/
def Survives {α : Type} (decision : Except Fault α) : Prop :=
  ∀ fault, decision = .error fault → fault.isFatal = false

namespace Survives

variable {α β : Type}

@[simp] theorem ok (a : α) : Survives (.ok a) := by
  rintro _ ⟨⟩

theorem error {fault : Fault} (mild : fault.isFatal = false) :
    Survives (.error fault : Except Fault α) := by
  rintro _ ⟨⟩
  exact mild

/-- A decision is as mild as what was found out for it. -/
theorem bind
    {found : Except Fault α}
    {rest : α → Except Fault β}
    (first : Survives found)
    (each : ∀ a, Survives (rest a)) :
    Survives (found >>= rest) := by
  cases found with
  | error fault => exact error (first fault rfl)
  | ok a => exact each a

theorem ite
    {c : Prop}
    [Decidable c]
    {yes no : Except Fault α}
    (mildYes : Survives yes)
    (mildNo : Survives no) :
    Survives (if c then yes else no) := by
  split
  · exact mildYes
  · exact mildNo

theorem map
    {found : Except Fault α}
    (first : Survives found)
    (f : α → β) :
    Survives (found.map f) := by
  cases found with
  | error fault => exact error (first fault rfl)
  | ok a => exact ok _

theorem mapError
    {ε : Type}
    {toFault : ε → Fault}
    (mild : ∀ e, (toFault e).isFatal = false)
    (found : Except ε α) :
    Survives (found.mapError toFault) := by
  cases found with
  | error e => exact error (mild e)
  | ok a => exact ok a

end Survives

theorem GeometryError.toFault_mild (e : GeometryError) : e.toFault.isFatal = false := by
  cases e <;> rfl

theorem KeywordError.toFault_mild (e : KeywordError) : e.toFault.isFatal = false := rfl

theorem ColorError.toFault_mild (e : ColorError) : e.toFault.isFatal = false := rfl

/-! ## Arguments -/

namespace Invocation

variable {α : Type} (inv : Invocation) (text : String)

theorem first_survives : Survives inv.first := by
  unfold first
  split
  · exact .ok _
  · exact .error rfl

theorem second_survives : Survives inv.second := by
  unfold second
  split
  · exact .ok _
  · exact .error rfl

theorem geometryOf_survives : Survives (geometryOf text) :=
  .mapError GeometryError.toFault_mild _

theorem regionOf_survives : Survives (regionOf text) :=
  .mapError GeometryError.toFault_mild _

theorem colorOf_survives : Survives (colorOf text) :=
  .mapError ColorError.toFault_mild _

theorem keywordOf_survives (κ : Type) [Keyword κ] : Survives (keywordOf κ text) :=
  .mapError KeywordError.toFault_mild _

theorem orInvalid_survives (a? : Option α) : Survives (orInvalid text a?) := by
  cases a? with
  | none => exact .error rfl
  | some a => exact .ok a

theorem wordOf_survives (word? : List Char → Option α) : Survives (wordOf word? text) :=
  orInvalid_survives text _

theorem geometry_survives : Survives inv.geometry :=
  .bind inv.first_survives geometryOf_survives

theorem region_survives : Survives inv.region :=
  .bind inv.first_survives regionOf_survives

theorem keyword_survives (κ : Type) [Keyword κ] : Survives (inv.keyword κ) :=
  .bind inv.first_survives fun text => keywordOf_survives text κ

theorem color_survives : Survives inv.color :=
  .bind inv.first_survives colorOf_survives

theorem number_survives : Survives inv.number :=
  .bind inv.first_survives fun text => orInvalid_survives text _

theorem word_survives (word? : List Char → Option α) : Survives (inv.word word?) :=
  .bind inv.first_survives fun text => wordOf_survives text word?

theorem textIfNormal_survives : Survives inv.textIfNormal :=
  .ite (inv.first_survives.map some) (.ok none)

end Invocation

/-! ## Settings -/

namespace SettingOption

open Invocation

variable (s : Settings) (inv : Invocation)

theorem plain_survives : Survives (plain s inv) :=
  .bind (.bind inv.textIfNormal_survives fun _ => .ok _) fun _ => .ok _

theorem numeric_survives : Survives (numeric s inv) :=
  .ite (.bind inv.number_survives fun _ => plain_survives s inv) (plain_survives s inv)

theorem geometric_survives : Survives (geometric s inv) :=
  .ite (.bind inv.geometry_survives fun _ => plain_survives s inv) (plain_survives s inv)

theorem regional_survives : Survives (regional s inv) :=
  .ite (.bind inv.region_survives fun _ => plain_survives s inv) (plain_survives s inv)

theorem keyword_survives
    (κ : Type)
    [Keyword κ]
    (put : Option κ → Settings → Settings) :
    Survives (keyword κ put s inv) :=
  .ite (.bind (inv.keyword_survives κ) fun _ => .bind inv.first_survives fun _ => .ok _) (.ok _)

theorem colorAs_survives
    (name standard : String)
    (put : Color → Settings → Settings) :
    Survives (colorAs name standard put s inv) :=
  .ite (.bind inv.first_survives fun text => .bind (colorOf_survives text) fun _ => .ok _)
    (.bind (.ok standard) fun text => .bind (colorOf_survives text) fun _ => .ok _)

theorem number_survives
    (standard : Float)
    (put : Float → Settings → Settings) :
    Survives (number standard put s inv) :=
  .ite (.bind inv.number_survives fun _ => .bind inv.first_survives fun _ => .ok _) (.ok _)

theorem word_survives
    {α : Type}
    (word? : List Char → Option α)
    (put : Option α → Settings → Settings) :
    Survives (word word? put s inv) :=
  .ite (.bind (inv.word_survives word?) fun _ => .ok _) (.ok _)

theorem textOnly_survives
    {check : String → Except Fault Unit}
    (mild : ∀ text, Survives (check text))
    (put : Option String → Settings → Settings) :
    Survives (textOnly check put s inv) := by
  refine .bind inv.textIfNormal_survives fun text? => ?_
  cases text? with
  | none => exact .ok _
  | some text => exact .bind (mild text) fun _ => .ok _

theorem textToo_survives
    {check : String → Except Fault Unit}
    (mild : ∀ text, Survives (check text))
    (put : Option String → Settings → Settings) :
    Survives (textToo check put s inv) := by
  refine .bind inv.textIfNormal_survives fun text? => ?_
  cases text? with
  | none => exact .ok _
  | some text => exact .bind (mild text) fun _ => .ok _

theorem anyText_survives (text : String) : Survives (anyText text) :=
  .ok ()

theorem mustBeGeometry_survives (text : String) : Survives (mustBeGeometry text) :=
  (geometryOf_survives text).map _

theorem mustBeRegion_survives (text : String) : Survives (mustBeRegion text) :=
  (regionOf_survives text).map _

theorem paint_survives
    (putColor : Color → DrawingSettings → DrawingSettings)
    (putPattern : Image → DrawingSettings → DrawingSettings) :
    Survives (paint putColor putPattern s inv) := by
  unfold paint
  extract_lets painted
  have each (text : String) : Survives (painted text) := by
    dsimp only [painted]
    split <;> exact .ok _
  exact .ite (.bind inv.first_survives each) (each "none")

theorem tile_survives : Survives (tile s inv) :=
  .ite (.bind inv.first_survives fun _ => .ok _) (.ok _)

theorem channel_survives : Survives (channel s inv) :=
  .ite
    (.bind inv.first_survives fun _ => .bind (.mapError KeywordError.toFault_mild _) fun _ => .ok _)
    (.ok _)

theorem parsed_survives
    {α : Type}
    (parse? : Settings → String → Option α)
    (standard : α)
    (put : α → Settings → Settings) :
    Survives (parsed parse? standard put s inv) :=
  .ite (.bind inv.first_survives fun text => .bind (orInvalid_survives text _) fun _ => .ok _)
    (.ok _)

theorem treeDepth_survives : Survives (treeDepth s inv) :=
  .ite (.bind (inv.word_survives _) fun _ => plain_survives _ inv) (plain_survives _ inv)

theorem page_survives : Survives (page s inv) :=
  .ite
    (.bind inv.first_survives fun _ =>
      .bind (.mapError GeometryError.toFault_mild _) fun _ => .ok _)
    (.ok _)

theorem define_survives : Survives (define s inv) :=
  .bind inv.first_survives fun _ => .ok _

theorem cache_survives : Survives (cache s inv) :=
  .ite (.bind inv.first_survives fun text => .bind (orInvalid_survives text _) fun _ => .ok _)
    (.ok _)

/-- No setting ends the run by itself. -/
theorem named?_survives
    {name : String}
    {setting : SettingOption}
    (named : named? name = some setting) :
    Survives (setting s inv) := by
  have everyOne : ∀ entry ∈ all, Survives (entry.2 s inv) := by
    simp only [all, List.forall_mem_cons, List.not_mem_nil, false_imp_iff, implies_true, and_true]
    refine ⟨.ok _, parsed_survives s inv _ _ _, .ok _, numeric_survives s inv,
      textOnly_survives s inv anyText_survives _, colorAs_survives s inv _ _ _,
      numeric_survives s inv, .ok _, geometric_survives s inv, colorAs_survives s inv _ _ _,
      colorAs_survives s inv _ _ _, cache_survives s inv, plain_survives s inv,
      channel_survives s inv, keyword_survives s inv _ _, plain_survives s inv,
      keyword_survives s inv _ _, keyword_survives s inv _ _, .ok _, define_survives s inv,
      geometric_survives s inv, textToo_survives s inv mustBeGeometry_survives _,
      word_survives s inv _ _, keyword_survives s inv _ _, plain_survives s inv,
      keyword_survives s inv _ _, keyword_survives s inv _ _,
      textToo_survives s inv anyText_survives _, keyword_survives s inv _ _,
      textOnly_survives s inv mustBeRegion_survives _, textToo_survives s inv anyText_survives _,
      paint_survives s inv _ _, keyword_survives s inv _ _,
      textOnly_survives s inv anyText_survives _, plain_survives s inv,
      parsed_survives s inv _ _ _, keyword_survives s inv _ _, geometric_survives s inv,
      keyword_survives s inv _ _, keyword_survives s inv _ _, number_survives s inv _ _,
      keyword_survives s inv _ _, number_survives s inv _ _, number_survives s inv _ _,
      plain_survives s inv, plain_survives s inv, numeric_survives s inv,
      colorAs_survives s inv _ _ _, .ok _, .ok _, keyword_survives s inv _ _, page_survives s inv,
      .ok _, number_survives s inv _ _, numeric_survives s inv, plain_survives s inv,
      word_survives s inv _ _, keyword_survives s inv _ _, .ok _, geometric_survives s inv, .ok _,
      .ok _, textOnly_survives s inv mustBeGeometry_survives _, word_survives s inv _ _,
      numeric_survives s inv, textOnly_survives s inv mustBeRegion_survives _,
      keyword_survives s inv _ _, paint_survives s inv _ _, number_survives s inv _ _,
      keyword_survives s inv _ _, .ok _, .ok _, textOnly_survives s inv anyText_survives _,
      tile_survives s inv, regional_survives s inv, colorAs_survives s inv _ _ _,
      treeDepth_survives s inv, keyword_survives s inv _ _, colorAs_survives s inv _ _ _,
      keyword_survives s inv _ _, .ok _, textOnly_survives s inv anyText_survives _,
      keyword_survives s inv _ _, parsed_survives s inv _ _ _, geometric_survives s inv⟩
  obtain ⟨before, behind, split, -⟩ := List.lookup_eq_some_iff.mp named
  exact everyOne (name, setting) (split ▸ List.mem_append_right _ List.mem_cons_self)

end SettingOption

/-! ## Operators on one image -/

namespace View

variable (view : View)

theorem expand_survives (image? : Option Image) (argument : String) :
    Survives (view.expand image? argument) := by
  refine .map ?_ _
  unfold Template.source
  split
  · exact .mapError (fun _ => rfl) _
  · exact .ok _

theorem bytesOf_survives (path : String) : Survives (view.bytesOf path) :=
  .mapError (fun _ => rfl) _

theorem textOf_survives (path : String) : Survives (view.textOf path) :=
  .mapError (fun _ => rfl) _

end View

theorem SparseColor.parse_survives (text : String) (channels : ChannelSet) :
    Survives (SparseColor.parse text channels) := by
  unfold SparseColor.parse
  dsimp only
  split
  · exact .ok _
  · exact .error rfl

namespace ImageOperator

open Invocation

variable (view : View) (image : Image) (inv : Invocation)

theorem byGeometry_survives (op : Geometry → Transform) :
    Survives (byGeometry op view image inv) :=
  .bind inv.geometry_survives fun _ => .ok _

theorem channelValue_survives (text : String) : Survives (channelValue text) :=
  orInvalid_survives text _

theorem byChannelValue_survives (op : Float → Transform) :
    Survives (byChannelValue op view image inv) :=
  .bind inv.first_survives fun text => .bind (channelValue_survives text) fun _ => .ok _

theorem numbers_survives (text : String) : Survives (numbers text) :=
  orInvalid_survives text _

/-! ### Attributes, text and paint -/

theorem comparisonColor_survives (key : String) :
    Survives (comparisonColor key view image inv) :=
  .ite (.bind inv.first_survives fun text => .bind (colorOf_survives text) fun _ => .ok _) (.ok _)

theorem set_survives : Survives (set view image inv) := by
  refine .bind inv.first_survives fun key => .ite (.ok _) ?_
  split
  · exact .ite (.bind (inv.second_survives.map some) fun _ => .ok _)
      (.bind (.ok none) fun _ => .ok _)
  · exact .ite
      (.bind inv.second_survives fun text => .bind (view.expand_survives _ text) fun _ => .ok _)
      (.ok _)

theorem annotate_survives : Survives (annotate view image inv) :=
  .bind inv.geometry_survives fun _ => .bind inv.second_survives fun text =>
    .bind (view.expand_survives _ text) fun _ => .ok _

theorem polaroid_survives : Survives (polaroid view image inv) := by
  unfold polaroid
  extract_lets framed
  have each (angle : Float) : Survives (framed angle) := by
    dsimp only [framed]
    split
    · exact .bind ((view.expand_survives _ _).map some) fun _ => .ok _
    · exact .bind (.ok none) fun _ => .ok _
  exact .ite (.bind (inv.geometry_survives.map _) each) (.bind (.ok _) each)

theorem identify_survives : Survives (identify view image inv) := by
  unfold identify
  split
  · exact .bind (view.expand_survives _ _) fun _ => .ok _
  · exact .ok _

theorem floodfill_survives : Survives (floodfill view image inv) :=
  .bind inv.region_survives fun _ => .bind inv.second_survives fun text =>
    .bind (colorOf_survives text) fun _ => .ok _

theorem sparseColor_survives : Survives (sparseColor view image inv) :=
  .bind (inv.keyword_survives _) fun _ => .bind inv.second_survives fun text =>
    .bind (SparseColor.parse_survives text _) fun _ => .ok _

/-! ### Detail -/

theorem statistic_survives : Survives (statistic view image inv) :=
  .bind (inv.keyword_survives _) fun _ => .bind inv.second_survives fun text =>
    .bind (geometryOf_survives text) fun _ => .ok _

theorem noise_survives : Survives (noise view image inv) :=
  .ite (.bind inv.geometry_survives fun _ => .ok _) (.bind (inv.keyword_survives _) fun _ => .ok _)

theorem morphology_survives : Survives (morphology view image inv) := by
  have each (asked : String × Int64) : Survives (do
      let method ← Invocation.keywordOf Morphology asked.1
      let kernel ← inv.second
      if (trimmed kernel).isEmpty then throw (.invalidArgument kernel)
      work (.morphology method asked.2 kernel)) :=
    .bind (keywordOf_survives _ _) fun _ => .bind inv.second_survives fun _ =>
      .ite (.bind (.error rfl) fun _ => .ok _) (.ok _)
  refine .bind inv.first_survives fun text => ?_
  dsimp only
  split
  · exact .bind (wordOf_survives _ _) fun _ => .bind (.ok _) each
  · exact .bind (.ok _) each

/-! ### Shape -/

theorem resizeTo_survives (r : Region) (method : Resampling) :
    Survives (resizeTo r image method) :=
  .ite (.ok _) (.ok _)

theorem resizeBy_survives (method : Resampling) :
    Survives (resizeBy method view image inv) :=
  .bind inv.region_survives fun r => resizeTo_survives image r method

theorem resize_survives : Survives (resize view image inv) :=
  .bind inv.region_survives fun r => resizeTo_survives image r _

theorem resample_survives : Survives (resample view image inv) :=
  .bind inv.geometry_survives fun _ =>
    .ite (.bind inv.first_survives fun _ => .bind (.error rfl) fun _ => .ok _) (.ok _)

theorem autoOrient_survives : Survives (autoOrient view image inv) := by
  unfold autoOrient
  split <;> exact .ok _

theorem crop_survives : Survives (crop view image inv) :=
  .bind inv.region_survives fun _ =>
    .ite (.bind inv.first_survives fun _ => .bind (.error rfl) fun _ => .ok _) (.ok _)

theorem distort_survives : Survives (distort view image inv) :=
  .bind (inv.keyword_survives _) fun _ => .bind inv.second_survives fun text =>
    .bind (numbers_survives text) fun _ => .ok _

theorem extent_survives : Survives (extent view image inv) := by
  refine .bind inv.region_survives fun r => ?_
  dsimp only
  exact .ok _

theorem geometry_survives : Survives (geometry view image inv) :=
  .ite
    (.bind inv.region_survives fun _ =>
      .ite (.bind inv.first_survives fun _ => .ok _) (resize_survives view image inv))
    (.ok _)

/-! ### Color and tone -/

theorem colorDecisions_survives : Survives (colorDecisions view image inv) :=
  .bind inv.first_survives fun path => .bind (view.textOf_survives path) fun _ => .ok _

theorem cipher_survives : Survives (cipher view image inv) :=
  .bind inv.first_survives fun path => .bind (view.bytesOf_survives path) fun _ => .ok _

theorem colorspace_survives : Survives (colorspace view image inv) :=
  .ite (.bind (inv.keyword_survives _) fun _ => .ite (.ok _) (.ok _))
    (.bind (.ok _) fun _ => .ite (.ok _) (.ok _))

theorem deskew_survives : Survives (deskew view image inv) :=
  .ite (.bind inv.first_survives fun text => .bind (channelValue_survives text) fun _ => .ok _)
    (.ok _)

theorem evaluate_survives : Survives (evaluate view image inv) :=
  .bind (inv.keyword_survives _) fun _ => .bind inv.second_survives fun text =>
    .bind (channelValue_survives text) fun _ => .ok _

theorem function_survives : Survives (function view image inv) :=
  .bind (inv.keyword_survives _) fun _ => .bind inv.second_survives fun text =>
    .bind (numbers_survives text) fun _ => .ok _

theorem levelColors_survives : Survives (levelColors view image inv) := by
  refine .bind inv.first_survives fun text => ?_
  dsimp only
  refine .bind (colorOf_survives _) fun black => ?_
  split
  · exact .ite (.bind (.ok _) fun _ => .ok _) (.bind (colorOf_survives _) fun _ => .ok _)
  · exact .bind (.ok _) fun _ => .ok _

theorem threshold_survives : Survives (threshold view image inv) :=
  .ite (.bind inv.first_survives fun text => .bind (channelValue_survives text) fun _ => .ok _)
    (.ok _)

/-! ### The table -/

/-- No operator on one image ends the run by itself. -/
theorem named?_survives
    {name : String}
    {operator : ImageOperator}
    (named : named? name = some operator) :
    Survives (operator view image inv) := by
  have everyOne : ∀ entry ∈ all, Survives (entry.2 view image inv) := by
    simp only [all, List.forall_mem_cons, List.not_mem_nil, false_imp_iff, implies_true, and_true]
    refine ⟨byGeometry_survives view image inv _, resizeBy_survives view image inv _,
      byGeometry_survives view image inv _, .bind (inv.keyword_survives _) fun _ => .ok _,
      annotate_survives view image inv, .ok _, .ok _, autoOrient_survives view image inv,
      byChannelValue_survives view image inv _,
      .ite (.bind inv.geometry_survives fun _ => .ok _) (.ok _),
      byGeometry_survives view image inv _, .bind inv.geometry_survives fun _ => .ok _,
      byGeometry_survives view image inv _, colorDecisions_survives view image inv,
      .ite (.ok _) (.ok _), byGeometry_survives view image inv _,
      .bind inv.region_survives fun _ => .ok _, .ok _,
      .bind inv.geometry_survives fun _ => .ok _, .bind inv.first_survives fun _ => .ok _,
      .bind (inv.word_survives _) fun _ => .ite (.ok _) (.ok _),
      colorspace_survives view image inv, .ok _, .bind inv.geometry_survives fun _ => .ok _,
      .bind inv.first_survives fun _ => .ok _, crop_survives view image inv,
      .bind (inv.word_survives _) fun _ => .ok _, cipher_survives view image inv, .ok _,
      deskew_survives view image inv, .ok _, distort_survives view image inv,
      .bind inv.first_survives fun _ => .ok _, byGeometry_survives view image inv _,
      byGeometry_survives view image inv _, cipher_survives view image inv, .ok _, .ok _,
      evaluate_survives view image inv, extent_survives view image inv,
      .ite (.bind inv.first_survives fun _ => .ok _) (.ok _), .ok _,
      floodfill_survives view image inv, .ok _, .bind inv.geometry_survives fun _ => .ok _,
      function_survives view image inv,
      .bind inv.geometry_survives fun _ => .ite (.ok _) (.ok _),
      byGeometry_survives view image inv _, byGeometry_survives view image inv _,
      geometry_survives view image inv, comparisonColor_survives view image inv _,
      identify_survives view image inv, byGeometry_survives view image inv _,
      resizeBy_survives view image inv _, byGeometry_survives view image inv _,
      .bind inv.geometry_survives fun _ => .ok _, levelColors_survives view image inv,
      .bind inv.geometry_survives fun _ => .ok _, resizeBy_survives view image inv _,
      comparisonColor_survives view image inv _, .ok _, byGeometry_survives view image inv _,
      byGeometry_survives view image inv _, byGeometry_survives view image inv _, .ok _,
      morphology_survives view image inv, byGeometry_survives view image inv _, .ok _,
      noise_survives view image inv, .ok _, .bind inv.color_survives fun _ => .ok _,
      .bind inv.first_survives fun _ => .ok _, byGeometry_survives view image inv _,
      polaroid_survives view image inv, .bind (inv.word_survives _) fun _ => .ok _,
      byGeometry_survives view image inv _, .bind inv.geometry_survives fun _ => .ok _,
      byGeometry_survives view image inv _,
      .ite (.bind inv.region_survives fun _ => .ok _) (.ok _), resample_survives view image inv,
      resize_survives view image inv, .bind inv.region_survives fun _ => .ok _,
      .bind inv.geometry_survives fun _ => .ite (.ok _) (.ok _),
      resizeBy_survives view image inv _, resizeBy_survives view image inv _,
      byGeometry_survives view image inv _, byGeometry_survives view image inv _, .ok _,
      byChannelValue_survives view image inv _, set_survives view image inv,
      .bind inv.geometry_survives fun _ => .ok _, byGeometry_survives view image inv _,
      byGeometry_survives view image inv _, .bind inv.geometry_survives fun _ => .ok _,
      .bind inv.geometry_survives fun _ => .ok _, .bind inv.geometry_survives fun _ => .ok _,
      byGeometry_survives view image inv _, byChannelValue_survives view image inv _,
      sparseColor_survives view image inv, .bind inv.region_survives fun _ => .ok _,
      byGeometry_survives view image inv _, statistic_survives view image inv, .ok _,
      byGeometry_survives view image inv _, threshold_survives view image inv,
      resizeBy_survives view image inv _, .bind inv.geometry_survives fun _ => .ok _, .ok _,
      .bind inv.color_survives fun _ => .ok _, .ok _, .ok _, .ok _,
      .ite (.bind (inv.keyword_survives _) fun _ => .ok _) (.ok _), .ite (.ok _) (.ok _), .ok _,
      byGeometry_survives view image inv _, .ok _, .bind inv.geometry_survives fun _ => .ok _,
      .bind inv.geometry_survives fun _ => .ok _, byChannelValue_survives view image inv _⟩
  obtain ⟨before, behind, split, -⟩ := List.lookup_eq_some_iff.mp named
  exact everyOne (name, operator) (split ▸ List.mem_append_right _ List.mem_cons_self)

end ImageOperator

/-! ## Operators on the list -/

/-- If a plan refuses, it does so with a fault that is not fatal. -/
def ListPlan.Survives : ListPlan → Prop
  | .refuse _ fault => fault.isFatal = false
  | _ => True

/-- Neither the decision nor the plan that comes out ends the run. -/
structure PlanSurvives (decision : Except Fault ListPlan) : Prop where
  /-- A fault that comes out is not fatal. -/
  decided : Survives decision
  /-- A plan that comes out refuses with a fault that is not fatal, if it does. -/
  planned : ∀ plan, decision = .ok plan → plan.Survives

namespace PlanSurvives

theorem ok
    {plan : ListPlan}
    (survives : plan.Survives) :
    PlanSurvives (.ok plan) where
  decided := .ok plan
  planned := by
    rintro _ ⟨⟩
    exact survives

theorem error {fault : Fault} (mild : fault.isFatal = false) : PlanSurvives (.error fault) where
  decided := .error mild
  planned := by rintro _ ⟨⟩

theorem bind
    {α : Type}
    {found : Except Fault α}
    {rest : α → Except Fault ListPlan}
    (first : Survives found)
    (each : ∀ a, PlanSurvives (rest a)) :
    PlanSurvives (found >>= rest) := by
  cases found with
  | error fault => exact error (first fault rfl)
  | ok a => exact each a

theorem ite
    {c : Prop}
    [Decidable c]
    {yes no : Except Fault ListPlan}
    (mildYes : PlanSurvives yes)
    (mildNo : PlanSurvives no) :
    PlanSurvives (if c then yes else no) := by
  split
  · exact mildYes
  · exact mildNo

end PlanSurvives

namespace ListOperator

open Invocation

variable (view : View) (images : Reel Image) (inv : Invocation)

theorem work_survives (op : Assembly) : PlanSurvives (work op) :=
  .ok trivial

theorem integer_survives (text : String) : Survives (integer text) :=
  wordOf_survives text _

theorem workFrom_survives (positions : List Nat) (op : Assembly) :
    PlanSurvives (workFrom images positions op) := by
  unfold workFrom
  split
  · exact .ok trivial
  · exact .error rfl

theorem inverseFourier_survives : PlanSurvives (inverseFourier view images inv) :=
  .ite (.error rfl) (workFrom_survives images _ _)

theorem lookup_survives : PlanSurvives (lookup view images inv) :=
  .ite (.error rfl) (workFrom_survives images _ _)

theorem morph_survives : PlanSurvives (morph view images inv) :=
  .bind inv.first_survives fun text => .bind (integer_survives text) fun _ =>
    .ite (.bind (.error rfl) fun _ => work_survives _) (work_survives _)

theorem composite_survives : PlanSurvives (composite view images inv) := by
  refine .ite (.error rfl) ?_
  split
  · exact workFrom_survives images _ _
  · exact .error rfl

theorem compositeLayers_survives : PlanSurvives (compositeLayers view images) := by
  unfold compositeLayers
  split
  · exact .error rfl
  · exact workFrom_survives images _ _

theorem layers_survives : PlanSurvives (layers view images inv) :=
  .bind (inv.keyword_survives _) fun _ =>
    .ite (compositeLayers_survives view images) (work_survives _)

theorem remap_survives : PlanSurvives (remap view images inv) :=
  .ite (.bind inv.first_survives fun _ => .ok trivial) (work_survives _)

theorem delete_survives : PlanSurvives (delete view images inv) :=
  .ite
    (.bind inv.first_survives fun _ =>
      .bind (.mapError GeometryError.toFault_mild _) fun _ => .ok trivial)
    (.ok trivial)

theorem copiesAsked_survives (text : String) (length : Nat) :
    Survives (copiesAsked text length) := by
  unfold copiesAsked
  split
  · exact .bind (integer_survives _) fun _ =>
      .bind (.mapError GeometryError.toFault_mild _) fun _ => .ok _
  · exact .bind (integer_survives _) fun _ => .ok _

theorem duplicate_survives : PlanSurvives (duplicate view images inv) := by
  unfold duplicate
  extract_lets copyAll
  have each (asked : Int64 × List Nat) : PlanSurvives (copyAll asked) := by
    simp only [copyAll]
    split
    · exact .ok trivial
    · exact .error rfl
  exact .ite
    (.bind inv.first_survives fun text => .bind (copiesAsked_survives text _) each)
    (.bind (.ok _) each)

theorem insert_survives : PlanSurvives (insert view images inv) := by
  unfold insert
  extract_lets moveTo
  have each (index : Int64) : PlanSurvives (moveTo index) := by
    simp only [moveTo]
    split
    · exact .error rfl
    · split
      · exact .ok trivial
      · exact .ok rfl
  exact .ite (.bind inv.first_survives fun text => .bind (integer_survives text) each)
    (.bind (.ok _) each)

theorem swapIndexes_survives : Survives (swapIndexes inv) :=
  .ite (.bind inv.geometry_survives fun _ => .ok _) (.ok _)

theorem swap_survives : PlanSurvives (swap view images inv) := by
  refine .bind (swapIndexes_survives inv) fun indexes => ?_
  dsimp only
  split
  · refine .ite (.ok trivial) ?_
    split
    · exact .ok trivial
    · exact .error rfl
  · exact .error rfl

theorem limit_survives : PlanSurvives (limit view images inv) :=
  .bind (inv.keyword_survives _) fun _ => .bind inv.second_survives fun text =>
    .bind (orInvalid_survives text _) fun _ => .ok trivial

theorem print_survives : PlanSurvives (print view images inv) :=
  .bind inv.first_survives fun text => .bind (view.expand_survives _ text) fun _ => .ok trivial

/-- No operator on the list ends the run by itself. -/
theorem named?_survives
    {name : String}
    {operator : ListOperator}
    (named : named? name = some operator) :
    PlanSurvives (operator view images inv) := by
  have everyOne : ∀ entry ∈ all, PlanSurvives (entry.2 view images inv) := by
    simp only [all, List.forall_mem_cons, List.not_mem_nil, false_imp_iff, implies_true, and_true]
    refine ⟨work_survives _, work_survives _, .bind inv.first_survives fun _ => work_survives _,
      lookup_survives view images inv, work_survives _, work_survives _,
      composite_survives view images inv, work_survives _, delete_survives view images inv,
      duplicate_survives view images inv,
      .bind (inv.keyword_survives _) fun _ => work_survives _, work_survives _, work_survives _,
      .bind inv.first_survives fun _ => work_survives _, lookup_survives view images inv,
      inverseFourier_survives view images inv, insert_survives view images inv,
      layers_survives view images inv, limit_survives view images inv, work_survives _,
      morph_survives view images inv, work_survives _, print_survives view images inv,
      remap_survives view images inv, .ok trivial,
      .bind inv.first_survives fun text =>
        .bind (integer_survives text) fun _ => work_survives _,
      swap_survives view images inv, .bind inv.first_survives fun _ => .ok trivial⟩
  obtain ⟨before, behind, split, -⟩ := List.lookup_eq_some_iff.mp named
  exact everyOne (name, operator) (split ▸ List.mem_append_right _ List.mem_cons_self)

end ListOperator

/-! ## Listings -/

/-- A listing that nobody knows does not end the run. -/
theorem Listing.text_survives
    (formats : List FormatEntry)
    (fonts : List String)
    (limits : Limits)
    (topic : String) :
    Survives (Listing.text formats fonts limits topic) := by
  unfold Listing.text
  split
  · exact .ok _
  · exact .ok _
  · exact .error (KeywordError.toFault_mild _)

end Darkroom
