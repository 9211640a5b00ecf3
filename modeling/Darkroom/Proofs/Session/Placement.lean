import Darkroom.Proofs.Operators.Image
import Darkroom.Proofs.Session.Failure

/-!
# Placements in a session

A session holds images in the list that options act on and in the lists put aside.  Whatever
placements these images have, an option gives them no others, but for one thing: when an operator
begins, images are brought in line with the settings.  Images that are read begin with the initial
placement.
-/

namespace Darkroom

/-- All images have placements of some kind. -/
def Placed (allowed : Placement → Prop) (images : List Image) : Prop :=
  ∀ image ∈ images, allowed image.placement

namespace Placed

variable {allowed : Placement → Prop} {images others : List Image}

theorem of_subset
    (placed : Placed allowed images)
    (subset : others ⊆ images) :
    Placed allowed others :=
  fun image mem => placed image (subset mem)

theorem append
    (placed : Placed allowed images)
    (placed' : Placed allowed others) :
    Placed allowed (images ++ others) :=
  List.forall_mem_append.mpr ⟨placed, placed'⟩

/-- Changes of other attributes keep placements. -/
theorem map
    {f : Image → Image}
    (placed : Placed allowed images)
    (same : ∀ image, (f image).placement = image.placement) :
    Placed allowed (images.map f) := by
  intro made mem
  obtain ⟨image, before, rfl⟩ := List.mem_map.mp mem
  exact same image ▸ placed image before

theorem of_drawsPlacement
    {result : Except EngineFault (List Image)}
    (placed : Placed allowed others)
    (draws : PixelEngine.DrawsPlacement others result)
    (made : result = .ok images) :
    Placed allowed images := by
  intro image mem
  obtain ⟨operand, given, same⟩ := draws images made image mem
  exact same ▸ placed operand given

end Placed

namespace Session

theorem Product.images_ofOutcome
    (image : Image)
    (finish : Image → Image)
    (outcome : Outcome) :
    (ofOutcome image finish outcome).images = (outcome.made image).map finish := by
  cases outcome <;> rfl

section

variable {σ : Type} {engine : Engine σ} (hands : engine.HandsPlacementsOn)
  {allowed : Placement → Prop} {s : Session σ}

/-! ## Operators on one image -/

/-- A place is closed by images that have placements of some kind, as all others have. -/
theorem place_placed
    {front rest : List Handle}
    {h : Handle}
    {image : Image}
    {done todo : List Image}
    (whole : s.images.Whole)
    (cut : s.images.CutAt front h rest done image todo)
    (placed : Placed allowed s.images.toList)
    {opened : Session σ}
    (images : opened.images = (s.images.take h).2)
    {product : Product}
    (made : Placed allowed product.images) :
    ∃ handles, (opened.place h product).images.order = front ++ handles ++ rest ∧
      Placed allowed (opened.place h product).images.toList := by
  obtain ⟨handles, -, order, items⟩ := place_cut whole cut images product
  rw [cut.items] at placed
  have before : Placed allowed done := placed.of_subset (List.subset_append_left _ _)
  have behind : Placed allowed todo :=
    placed.of_subset (List.Subset.trans (List.subset_cons_self _ _) (List.subset_append_right _ _))
  exact ⟨handles, order, items ▸ (before.append made).append behind⟩

include hands

/-- What was decided about an image is done, and what comes of it has its placement. -/
theorem performOnImage_placement
    {image : Image}
    {plan : ImagePlan}
    (keeps : plan.KeepsPlacement image)
    {product : Product}
    (done : (s.performOnImage engine image plan).1 = .ok product) :
    ∀ made ∈ product.images, made.placement = image.placement := by
  cases plan with
  | keep kept =>
      obtain rfl := Except.ok.inj done
      exact List.forall_mem_singleton.mpr keeps
  | setOption key value? kept =>
      obtain rfl := Except.ok.inj done
      exact List.forall_mem_singleton.mpr keeps
  | print text =>
      obtain rfl := Except.ok.inj done
      exact List.forall_mem_singleton.mpr rfl
  | apply op finish =>
      have worked := hands.transform image op s.world
      dsimp only [performOnImage] at done
      generalize (engine.transform image op s.world).1 = result at worked done
      cases result with
      | error refusal => cases done
      | ok outcome =>
          obtain rfl := Except.ok.inj done
          rw [Product.images_ofOutcome]
          intro made mem
          obtain ⟨unfinished, before, rfl⟩ := List.mem_map.mp mem
          exact (keeps unfinished).trans (worked outcome rfl unfinished before)

theorem actOnImage_placement
    {name : String}
    {operator : ImageOperator}
    (named : ImageOperator.named? name = some operator)
    {inv : Invocation}
    {image : Image}
    {product : Product}
    (done : (s.actOnImage engine operator inv image).1 = .ok product) :
    ∀ made ∈ product.images, made.placement = image.placement := by
  unfold actOnImage at done
  split at done
  · next plan decided =>
    have keeps := ImageOperator.named?_keepsPlacement (s.view engine) image inv named plan decided
    exact performOnImage_placement hands keeps done
  · cases done

theorem visit_made_placement
    {name : String}
    {operator : ImageOperator}
    (named : ImageOperator.named? name = some operator)
    {inv : Invocation}
    {v : Visit σ}
    (acted : v.before.actOnImage engine operator inv v.given = (v.outcome, v.after)) :
    ∀ made ∈ v.made, made.placement = v.given.placement := by
  have made : v.made = v.product.images := rfl
  rw [made, Visit.product]
  cases outcome : v.outcome with
  | ok product =>
      rw [outcome] at acted
      exact actOnImage_placement hands named (congrArg Prod.fst acted)
  | error fault => exact List.forall_mem_singleton.mpr rfl

/-- A pass puts the images that its operator was given, or what was made of them, into the places of
the images that were there. -/
theorem passOver_placed
    {name : String}
    {operator : ImageOperator}
    (named : ImageOperator.named? name = some operator)
    (inv : Invocation)
    (whole : s.images.Whole)
    (placed : Placed allowed s.images.toList)
    (given : ∀ v ∈ s.visits engine operator inv s.images.order, allowed v.given.placement) :
    Placed allowed (s.passOver engine operator inv s.images.order).2.images.toList := by
  have visited : Visited engine operator inv [] s.images.toList s
      (s.visits engine operator inv s.images.order)
      (s.passOver engine operator inv s.images.order).2 :=
    (visits_visited engine operator inv [] s.images.order whole rfl rfl rfl).1
  rw [visited.images, List.nil_append]
  refine Placed.append ?_ (placed.of_subset (List.drop_subset _ _))
  intro made mem
  obtain ⟨v, visiting, mem⟩ := List.mem_flatMap.mp mem
  exact visit_made_placement hands named (visited.acted v visiting) made mem ▸ given v visiting

/-! ## Operators on the list -/

theorem remapOver_placed
    (reference : Image)
    (dither : Bool)
    {front handles : List Handle}
    (sound : s.Sound)
    (order : s.images.order = front ++ handles)
    (placed : Placed allowed s.images.toList) :
    Placed allowed (s.remapOver engine reference dither handles).2.images.toList := by
  induction handles generalizing s front with
  | nil => exact placed
  | cons h rest inductionHypothesis =>
      obtain ⟨done, image, todo, cut⟩ := Reel.CutAt.of_order sound.images order
      have known : allowed image.placement :=
        placed image (cut.items ▸ List.mem_append_right _ List.mem_cons_self)
      let plan : ImagePlan := .apply (.remap reference dither) id
      let opened : Session σ := { s with images := (s.images.take h).2 }
      have same : opened.SameLists (opened.performOnImage engine image plan).2 := ⟨rfl, rfl, rfl⟩
      have worked : ∀ product, (opened.performOnImage engine image plan).1 = .ok product →
          Placed allowed product.images := by
        intro product done made mem
        have kept : plan.KeepsPlacement image := fun _ => rfl
        exact performOnImage_placement hands kept done made mem ▸ known
      rw [remapOver, Reel.take, cut.get?_eq sound.images]
      dsimp only
      rw [show { s with images := s.images.put h none } = opened from rfl]
      generalize performOnImage engine image plan opened = acted at same worked ⊢
      obtain ⟨outcome, after⟩ := acted
      cases outcome with
      | ok product =>
          obtain ⟨handles, order, placed⟩ :=
            place_placed sound.images cut placed same.images (worked product rfl)
          exact inductionHypothesis (sound.place same product) order placed
      | error fault =>
          have back : Placed allowed (Product.same image).images :=
            List.forall_mem_singleton.mpr known
          exact (place_placed sound.images cut placed same.images back).choose_spec.2

theorem assemble_placed
    {operands : List Image}
    (given : Placed allowed operands)
    (op : Assembly)
    (placed : Placed allowed s.images.toList) :
    Placed allowed (s.assemble engine operands op).2.images.toList := by
  have draws := hands.assemble operands op s.world
  unfold assemble
  split
  · next images world assembled =>
    have made := given.of_drawsPlacement draws (congrArg Prod.fst assembled)
    dsimp only
    rwa [(Reel.WellFormed.replaceAll _ _).toList_of_places (Reel.replaceAll_places _ _)]
  · exact placed

omit hands in
theorem writeImages_placed
    (request : WriteRequest)
    (rename : Bool)
    (whole : s.images.Whole)
    (placed : Placed allowed s.images.toList) :
    Placed allowed (s.writeImages engine request rename).2.images.toList := by
  unfold writeImages
  dsimp only
  split
  · exact placed
  · cases rename with
    | false => exact placed
    | true =>
        dsimp only
        rw [if_pos rfl, whole.updateAll_toList]
        exact placed.map fun _ => rfl

/-- What was decided about the list is done, and the images have placements that were there. -/
theorem performOnList_placed
    {plan : ListPlan}
    (picks : plan.Picks s.images)
    (sound : s.Sound)
    (placed : Placed allowed s.images.toList) :
    Placed allowed (s.performOnList engine plan).2.images.toList := by
  cases plan with
  | assemble op =>
      have operands : Placed allowed s.images.intoList := by
        rwa [sound.images.wellFormed.intoList_eq, ← sound.images.wellFormed.toList_eq]
      refine assemble_placed hands operands op ?_
      dsimp only
      rwa [sound.images.ofList_intoList_toList]
  | assembleFrom operands op => exact assemble_placed hands (placed.of_subset picks) op placed
  | rearrange images => exact placed.of_subset picks.subset
  | refuse images fault => exact placed.of_subset picks.subset
  | remap path dither =>
      have read := auxiliaryImage_sameLists engine path s
      rw [performOnList]
      split
      · next reference after found =>
        rw [found] at read
        have order : after.images.order = [] ++ after.images.order := rfl
        exact remapOver_placed hands reference dither (sound.sameLists read) order
          (read.images ▸ placed)
      · next fault after failed =>
        rw [failed] at read
        exact read.images ▸ placed
  | limit resource limit => exact placed
  | print text => exact placed
  | write request rename => exact writeImages_placed request rename sound.images placed

/-- An operator on the list gives no image a placement that none has once the images are in line
with the settings. -/
theorem applyToList_placed
    (option : String)
    (first? second? : Option String)
    {operator : ListOperator}
    (named : ListOperator.named? (Invocation.of option first? second?).name = some operator)
    (sound : s.Sound)
    (placed : Placed allowed s.images.toList)
    (synced : Placed allowed s.syncAll.images.toList) :
    Placed allowed (s.applyToList engine option first? second?).2.images.toList := by
  have sound' : s.syncAll.Sound := sound.withImages (syncAll_whole sound.images)
  unfold applyToList
  extract_lets inv
  rw [named]
  dsimp only
  split
  · exact placed
  · rw [(settle_sameLists inv _).images]
    split
    · next plan decided =>
      have picks := ListOperator.named?_picks _ inv named sound'.images plan decided
      exact performOnList_placed hands picks sound' synced
    · exact synced

end

/-! ## What operators see -/

/-- An image as an operator sees it, and the settings of that moment. -/
structure Sight where
  /-- The settings. -/
  settings : ImageSettings
  /-- The image, in line with the settings. -/
  image : Image

variable {σ : Type} (engine : Engine σ)

/-- What an operator sees of the images that it is applied to. -/
def sights (s : Session σ) : Call → List Sight
  | .image option first? second? =>
      let inv := Invocation.of option first? second?
      match ImageOperator.named? inv.name with
      | none => []
      | some operator =>
          (s.visits engine operator inv s.images.order).map fun v =>
            ⟨v.before.settings.image, v.given⟩
  | .list option first? second? =>
      match ListOperator.named? (Invocation.of option first? second?).name with
      | none => []
      | some _ => s.syncAll.images.toList.map fun image => ⟨s.settings.image, image⟩
  | _ => []

/-- Every image that an operator sees was there before and is in line with the settings. -/
theorem sights_found
    {s : Session σ}
    (sound : s.Sound)
    {c : Call}
    {sight : Sight}
    (mem : sight ∈ s.sights engine c) :
    ∃ found ∈ s.images.toList, sight.image = sight.settings.sync found := by
  cases c with
  | image option first? second? =>
      rw [sights] at mem
      split at mem
      · cases mem
      · next operator named =>
        obtain ⟨v, visiting, rfl⟩ := List.mem_map.mp mem
        have visited : Visited engine operator (.of option first? second?) [] s.images.toList s
            (s.visits engine operator (.of option first? second?) s.images.order)
            (s.passOver engine operator (.of option first? second?) s.images.order).2 :=
          (visits_visited engine operator _ [] s.images.order sound.images rfl rfl rfl).1
        exact ⟨v.found, visited.found_mem visiting, rfl⟩
  | list option first? second? =>
      rw [sights] at mem
      split at mem
      · cases mem
      · obtain ⟨image, synced, rfl⟩ := List.mem_map.mp mem
        rw [syncAll_toList sound.images] at synced
        obtain ⟨found, before, rfl⟩ := List.mem_map.mp synced
        exact ⟨found, before, rfl⟩
  | _ => cases mem

/-! ## All images of a session -/

section

variable {engine} {s s' : Session σ} {allowed : Placement → Prop}

theorem mem_gathered
    {image : Image} :
    image ∈ s.gathered ↔
      image ∈ s.images.toList ∨ ∃ outer ∈ s.scopes.frames, image ∈ outer.toList := by
  simp [gathered, or_comm]

/-- All images of a session, those put aside too, have placements of some kind. -/
structure Holding (allowed : Placement → Prop) (s : Session σ) : Prop where
  /-- The lists are whole. -/
  sound : s.Sound
  /-- The images have such placements. -/
  placed : Placed allowed s.gathered

namespace Holding

theorem images
    (holding : s.Holding allowed) :
    Placed allowed s.images.toList :=
  fun image mem => holding.placed image (mem_gathered.mpr (.inl mem))

theorem outer
    (holding : s.Holding allowed)
    {outer : Reel Image}
    (frame : outer ∈ s.scopes.frames) :
    Placed allowed outer.toList :=
  fun image mem => holding.placed image (mem_gathered.mpr (.inr ⟨outer, frame, mem⟩))

theorem mono
    {allowed' : Placement → Prop}
    (holding : s.Holding allowed)
    (wider : ∀ placement, allowed placement → allowed' placement) :
    s.Holding allowed' :=
  ⟨holding.sound, fun image mem => wider _ (holding.placed image mem)⟩

/-- Only the list of images counts when the lists put aside stay. -/
theorem sameBrackets
    (holding : s.Holding allowed)
    (same : s.SameBrackets s')
    (sound : s'.Sound)
    (placed : Placed allowed s'.images.toList) :
    s'.Holding allowed := by
  refine ⟨sound, fun image mem => ?_⟩
  rcases mem_gathered.mp mem with inside | ⟨outer, frame, outside⟩
  · exact placed image inside
  · exact holding.outer (same.scopes ▸ frame) image outside

theorem sameLists
    (holding : s.Holding allowed)
    (same : s.SameLists s') :
    s'.Holding allowed :=
  holding.sameBrackets (.of_sameLists same) (holding.sound.sameLists same)
    (same.images ▸ holding.images)

theorem passes
    {b : Bracket}
    (holding : s.Holding allowed)
    (passes : s.Passes b s')
    (sound : s'.Sound) :
    s'.Holding allowed := by
  have lists : s.ListsWellFormed :=
    List.forall_mem_cons.mpr ⟨holding.sound.images.wellFormed,
      fun outer frame => (holding.sound.scopes outer frame).wellFormed⟩
  exact ⟨sound, passes.gathered_eq lists ▸ holding.placed⟩

theorem setting
    (option : String)
    (first? : Option String)
    (holding : s.Holding allowed) :
    (s.applySetting engine option first?).2.Holding allowed :=
  holding.sameLists (applySetting_sameLists engine option first? s)

/-! ## Special options -/

/-- What is read has no placement yet, and what is cloned has the one of an image put aside. -/
theorem extended
    (hands : engine.HandsPlacementsOn)
    (bare : allowed default)
    (holding : s.Holding allowed)
    (extended : s.Extended engine s') :
    s'.Holding allowed := by
  refine holding.sameBrackets extended.sameBrackets (holding.sound.extended engine extended) ?_
  cases extended with
  | unchanged => exact holding.images
  | printed text => exact holding.images
  | refused request => exact holding.images
  | read answer =>
      have initial := hands.read _ s.world _ answer
      rw [holding.sound.images.extend_toList]
      exact holding.images.append fun image mem => initial image mem ▸ bare
  | cloned frame copied =>
      rw [holding.sound.images.extend_toList]
      exact holding.images.append
        ((holding.outer frame).of_subset (Reel.copies?_subset copied))

theorem applySpecial
    (hands : engine.HandsPlacementsOn)
    (bare : allowed default)
    (option : String)
    (first? : Option String)
    (holding : s.Holding allowed) :
    (s.applySpecial engine option first?).2.Holding allowed := by
  by_cases bracket : ∃ b : Bracket, (Invocation.splitSign option).1 = b.option
  · obtain ⟨b, named⟩ := bracket
    have sound := holding.sound.applySpecial engine option first?
    rw [applySpecial_bracket engine named] at sound ⊢
    by_cases refuses : s.Refuses b
    · rw [bracket_of_refuses refuses] at sound ⊢
      exact holding.sameLists (settle_sameLists _ (.error b.refusal, s))
    · obtain ⟨s', acted, passes⟩ := bracket_passes refuses
      rw [acted] at sound ⊢
      exact holding.passes passes sound
  · have noBracket := not_exists.mp bracket
    unfold Session.applySpecial
    extract_lets inv
    split
    · exact holding
    · next special named =>
      have acted := holding.extended hands bare (special_extended engine named noBracket inv s)
      exact acted.sameLists (settle_sameLists inv _)

/-! ## Operators -/

theorem applyToImages
    (hands : engine.HandsPlacementsOn)
    (option : String)
    (first? second? : Option String)
    (holding : s.Holding allowed)
    (seen : ∀ sight ∈ s.sights engine (.image option first? second?),
      allowed sight.image.placement) :
    (s.applyToImages engine option first? second?).2.Holding allowed := by
  refine holding.sameBrackets (applyToImages_sameBrackets engine option first? second? s)
    (holding.sound.applyToImages engine option first? second?) ?_
  rw [sights] at seen
  unfold Session.applyToImages
  extract_lets inv
  cases named : ImageOperator.named? inv.name with
  | none => exact holding.images
  | some operator =>
      rw [show ImageOperator.named? (Invocation.of option first? second?).name = some operator
        from named, List.forall_mem_map] at seen
      dsimp only
      split
      · exact holding.images
      · exact passOver_placed hands named inv holding.sound.images holding.images seen

theorem applyToList
    (hands : engine.HandsPlacementsOn)
    (option : String)
    (first? second? : Option String)
    (holding : s.Holding allowed)
    (seen : ∀ sight ∈ s.sights engine (.list option first? second?),
      allowed sight.image.placement) :
    (s.applyToList engine option first? second?).2.Holding allowed := by
  refine holding.sameBrackets (applyToList_sameBrackets engine option first? second? s)
    (holding.sound.applyToList engine option first? second?) ?_
  rw [sights] at seen
  cases named : ListOperator.named? (Invocation.of option first? second?).name with
  | none =>
      unfold Session.applyToList
      dsimp only
      rw [named]
      exact holding.images
  | some operator =>
      rw [named, List.forall_mem_map] at seen
      exact applyToList_placed hands option first? second? named holding.sound holding.images seen

/-- An option gives images no other placements than they had before, than operators saw, and than
the initial one. -/
theorem call
    (hands : engine.HandsPlacementsOn)
    (bare : allowed default)
    {c : Call}
    (one : c.AppliesOption)
    (holding : s.Holding allowed)
    (seen : ∀ sight ∈ s.sights engine c, allowed sight.image.placement) :
    (s.call engine c).2.Holding allowed := by
  cases c with
  | setting option first? => exact holding.setting option first?
  | image option first? second? => exact holding.applyToImages hands option first? second? seen
  | list option first? second? => exact holding.applyToList hands option first? second? seen
  | special option first? => exact holding.applySpecial hands bare option first?
  | run tokens => exact one.elim

end Holding
end
end Session
end Darkroom
