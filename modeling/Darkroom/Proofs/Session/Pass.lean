import Darkroom.Proofs.Reel.Whole
import Darkroom.Session.Apply

/-!
# One pass of an operator over the images

An operator on one image visits the images of the list in their order.  A visit takes the image out
of its place, brings it in line with the settings of that moment, and lets the operator act; then
its product fills the place or replaces it.  A place that a visit made is not visited in the same
pass, whatever the visits do to the places around it.

A pass is described by the list of its visits.  They are chained: each visit begins in the session
that the one before it left, up to the list of images, which the description gives separately.
-/

namespace Darkroom
namespace Session

variable {σ : Type} (engine : Engine σ)

/-! ## What work on an image can change -/

/-- Work on an image can change the settings, what was printed and the world, and nothing else. -/
theorem performOnImage_frame
    (image : Image)
    (plan : ImagePlan)
    (s : Session σ) :
    ∃ settings printed world,
      (s.performOnImage engine image plan).2 = { s with settings, printed, world } := by
  cases plan <;> exact ⟨_, _, _, rfl⟩

theorem actOnImage_frame
    (operator : ImageOperator)
    (inv : Invocation)
    (image : Image)
    (s : Session σ) :
    ∃ settings printed world,
      (s.actOnImage engine operator inv image).2 = { s with settings, printed, world } := by
  unfold actOnImage
  split
  · exact performOnImage_frame engine image _ s
  · exact ⟨_, _, _, rfl⟩

/-! ## Visits -/

/-- The images that come into a place. -/
def Product.images : Product → List Image
  | .same image => [image]
  | .others images => images

/-- One run of an operator on an image of the list. -/
structure Visit (σ : Type) where
  /-- The image as it was in the list. -/
  found : Image
  /-- The session in which the operator acts; the place of the image is open. -/
  before : Session σ
  /-- What becomes of the image, or why nothing does. -/
  outcome : Except Fault Product
  /-- The session in which the operator ends. -/
  after : Session σ

namespace Visit

variable (inv : Invocation) (v : Visit σ)

/-- The image in line with the settings of that moment. -/
def given : Image :=
  v.before.settings.image.sync v.found

/-- What is put into the place: after a fault the image that the operator was given. -/
def product : Product :=
  match v.outcome with
  | .ok product => product
  | .error _ => .same v.given

/-- The images at the place afterwards. -/
def made : List Image :=
  match v.product with
  | .same image => [image]
  | .others images => images

/-- The fault, if there was one. -/
def fault? : Option Fault :=
  match v.outcome with
  | .ok _ => none
  | .error fault => some fault

/-- The report of the fault, under the option as written. -/
def incident? : Option Incident :=
  v.fault?.map fun fault => ⟨fault.severity, fault, inv.option⟩

/-- The fault that ends the pass. -/
def fatal? : Option Fatal :=
  (v.fault?.filter Fault.isFatal).map fun fault => ⟨fault, inv.option⟩

/-- The session after the visit, in which the fault is reported. -/
def reported : Session σ :=
  match v.fault? with
  | some fault => v.after.report fault inv.option
  | none => v.after

/-- The session after the visit, in which the place is closed again. -/
def closed (h : Handle) : Session σ :=
  (v.reported inv).place h v.product

theorem fatal?_eq_some_iff
    {inv : Invocation}
    {v : Visit σ}
    {fatal : Fatal} :
    v.fatal? inv = some fatal ↔
      ∃ fault, v.outcome = .error fault ∧ fault.isFatal ∧ fatal = ⟨fault, inv.option⟩ := by
  rw [fatal?, fault?]
  cases v.outcome with
  | ok product => simp
  | error fault =>
      simp only [Option.filter_some, Except.error.injEq, exists_eq_left']
      split
      · next isFatal =>
        rw [Option.map_some, Option.some.injEq, and_iff_right isFatal]
        exact eq_comm
      · next survives => simp [survives]

end Visit

/-- The visit of an image, whose place is opened for it. -/
def visit (operator : ImageOperator) (inv : Invocation) (h : Handle) (image : Image)
    (s : Session σ) : Visit σ :=
  let before := { s with images := (s.images.take h).2 }
  let (outcome, after) := actOnImage engine operator inv (s.settings.image.sync image) before
  { found := image, before, outcome, after }

section Steps

variable {engine} {operator : ImageOperator} {inv : Invocation} {h : Handle} {image : Image}
  {s : Session σ} {rest : List Handle}

theorem passOver_of_taken
    (taken : s.images.get? h = none) :
    s.passOver engine operator inv (h :: rest) = s.passOver engine operator inv rest := by
  rw [passOver, Reel.take, taken]

/-- A pass goes on after a visit, unless the visit ended with a fatal fault. -/
theorem passOver_of_found
    (found : s.images.get? h = some image) :
    s.passOver engine operator inv (h :: rest) =
      let v := s.visit engine operator inv h image
      match v.fatal? inv with
      | some fatal => (some fatal, v.closed inv h)
      | none => (v.closed inv h).passOver engine operator inv rest := by
  rw [passOver, Reel.take, found]
  simp only [visit, Reel.take]
  rcases actOnImage engine operator inv (s.settings.image.sync image)
    { s with images := s.images.put h none } with ⟨outcome, after⟩
  cases outcome with
  | ok product => rfl
  | error fault =>
      cases fatal : fault.isFatal <;>
        simp [settle, fatal, Option.filter_some, Visit.closed, Visit.fatal?, Visit.fault?,
          Visit.reported, Visit.product, Visit.given, Session.place, Session.report]

/-- What every visit keeps, a pass keeps. -/
theorem passOver_kept
    (property : Session σ → Prop)
    (kept : ∀ s h image, property s →
      property ((s.visit engine operator inv h image).closed inv h))
    (holds : property s)
    (handles : List Handle) :
    property (s.passOver engine operator inv handles).2 := by
  induction handles generalizing s with
  | nil => exact holds
  | cons h rest inductionHypothesis =>
      cases found : s.images.get? h with
      | none =>
          rw [passOver_of_taken found]
          exact inductionHypothesis holds
      | some image =>
          rw [passOver_of_found found]
          dsimp only
          split
          · exact kept s h image holds
          · exact inductionHypothesis (kept s h image holds)

/-- What each image given other colors keeps, giving them to all images keeps. -/
theorem remapOver_kept
    (property : Session σ → Prop)
    {reference : Image}
    {dither : Bool}
    (kept : ∀ s h image product, property s →
      property ((performOnImage engine image (.apply (.remap reference dither) id)
        { s with images := (s.images.take h).2 }).2.place h product))
    (holds : property s)
    (handles : List Handle) :
    property (s.remapOver engine reference dither handles).2 := by
  induction handles generalizing s with
  | nil => exact holds
  | cons h rest inductionHypothesis =>
      rw [remapOver]
      split
      · exact inductionHypothesis holds
      · next image images taken =>
        have opened : images = (s.images.take h).2 := by rw [taken]
        subst opened
        have placed := fun product => kept s h image product holds
        split
        · next product after acted =>
          rw [acted] at placed
          exact inductionHypothesis (placed product)
        · next fault after acted =>
          rw [acted] at placed
          exact placed (.same image)

/-- What a load of the pattern keeps, and putting it into the settings, their plan keeps. -/
theorem performSetting_pattern_kept
    (property : Session σ → Prop)
    {path : String}
    {install : Image → Settings → Settings}
    (loaded : property (s.auxiliaryImage engine path).2)
    (kept : ∀ image s, property s → property { s with settings := install image s.settings }) :
    property (s.performSetting engine (.pattern path install)).2 := by
  rw [performSetting]
  split
  · next image after found =>
    rw [found] at loaded
    exact kept image after loaded
  · next fault after failed =>
    rw [failed] at loaded
    exact loaded

/-- What a load of the reference keeps, and giving its colors to all images, their plan keeps. -/
theorem performOnList_remap_kept
    (property : Session σ → Prop)
    {path : String}
    {dither : Bool}
    (loaded : property (s.auxiliaryImage engine path).2)
    (kept : ∀ reference s, property s →
      property (s.remapOver engine reference dither s.images.order).2) :
    property (s.performOnList engine (.remap path dither)).2 := by
  rw [performOnList]
  split
  · next reference after found =>
    rw [found] at loaded
    exact kept reference after loaded
  · next fault after failed =>
    rw [failed] at loaded
    exact loaded

/-- A visit changes the list of images, the settings, the log, what was printed and the world, and
nothing else. -/
theorem visit_reported_frame
    (engine : Engine σ)
    (operator : ImageOperator)
    (inv : Invocation)
    (h : Handle)
    (image : Image)
    (s : Session σ) :
    ∃ settings printed world,
      (s.visit engine operator inv h image).reported inv =
        { s with
          images := (s.images.take h).2
          settings
          log := ⟨s.log.incidents ++
            ((s.visit engine operator inv h image).incident? inv).toList⟩
          printed
          world } := by
  obtain ⟨settings, printed, world, after⟩ := actOnImage_frame engine operator inv
    (s.settings.image.sync image) { s with images := (s.images.take h).2 }
  refine ⟨settings, printed, world, ?_⟩
  have ended : (s.visit engine operator inv h image).after =
      { s with images := (s.images.take h).2, settings, printed, world } := after
  rw [Visit.reported, Visit.incident?]
  cases (s.visit engine operator inv h image).fault? with
  | none => simp [ended]
  | some fault => simp [ended, Session.report, IncidentLog.report, IncidentLog.reportAs,
      IncidentLog.add]

/-- A visit reports its fault and nothing else. -/
theorem visit_incidents
    (engine : Engine σ)
    (operator : ImageOperator)
    (inv : Invocation)
    (h : Handle)
    (image : Image)
    (s : Session σ) :
    ((s.visit engine operator inv h image).closed inv h).log.incidents =
      s.log.incidents ++ ((s.visit engine operator inv h image).incident? inv).toList := by
  obtain ⟨settings, printed, world, reported⟩ :=
    visit_reported_frame engine operator inv h image s
  rw [Visit.closed, reported]
  cases (s.visit engine operator inv h image).product <;> rfl

/-- A place that was opened is closed by a product. -/
theorem place_whole
    (whole : s.images.Whole)
    {opened : Session σ}
    (images : opened.images = (s.images.take h).2)
    (product : Product) :
    (opened.place h product).images.Whole := by
  cases product with
  | same made =>
      rw [place, images]
      exact whole.restore_take h made
  | others made =>
      rw [place, images]
      exact whole.splice_take h made

/-- A visit leaves no place open. -/
theorem visit_whole
    (engine : Engine σ)
    (operator : ImageOperator)
    (inv : Invocation)
    (h : Handle)
    (image : Image)
    (whole : s.images.Whole) :
    ((s.visit engine operator inv h image).closed inv h).images.Whole := by
  obtain ⟨settings, printed, world, reported⟩ :=
    visit_reported_frame engine operator inv h image s
  exact place_whole whole (congrArg images reported) _

/-- A product takes the place that was opened for it. -/
theorem place_cut
    (whole : s.images.Whole)
    {front : List Handle}
    {done todo : List Image}
    (cut : s.images.CutAt front h rest done image todo)
    {opened : Session σ}
    (images : opened.images = (s.images.take h).2)
    (product : Product) :
    ∃ handles,
      handles.length = product.images.length ∧
      (opened.place h product).images.order = front ++ handles ++ rest ∧
      (opened.place h product).images.toList = done ++ product.images ++ todo := by
  cases product with
  | same made =>
      rw [place, images]
      obtain ⟨order, items⟩ := cut.restore_take whole made
      exact ⟨[h], rfl, order.trans (List.append_cons ..), items.trans (List.append_cons ..)⟩
  | others made =>
      rw [place, images]
      exact cut.splice_take whole made

/-- What a visit made takes the place of the image. -/
theorem visit_cut
    (engine : Engine σ)
    (operator : ImageOperator)
    (inv : Invocation)
    (whole : s.images.Whole)
    {front : List Handle}
    {done todo : List Image}
    (cut : s.images.CutAt front h rest done image todo) :
    ∃ handles,
      handles.length = (s.visit engine operator inv h image).made.length ∧
      ((s.visit engine operator inv h image).closed inv h).images.order =
        front ++ handles ++ rest ∧
      ((s.visit engine operator inv h image).closed inv h).images.toList =
        done ++ (s.visit engine operator inv h image).made ++ todo := by
  obtain ⟨settings, printed, world, reported⟩ :=
    visit_reported_frame engine operator inv h image s
  exact place_cut whole cut (congrArg images reported) _

end Steps

/-! ## Passes -/

/-- The visits of a pass, up to the first that is fatal. -/
def visits (operator : ImageOperator) (inv : Invocation) : List Handle → Session σ → List (Visit σ)
  | [], _ => []
  | h :: rest, s =>
      match s.images.get? h with
      | none => visits operator inv rest s
      | some image =>
          let v := s.visit engine operator inv h image
          match v.fatal? inv with
          | some _ => [v]
          | none => v :: visits operator inv rest (v.closed inv h)

/-- Two sessions that differ in nothing but the list of images. -/
def Alike (s s' : Session σ) : Prop :=
  ∃ images, s' = { s with images }

theorem Alike.refl
    (s : Session σ) :
    s.Alike s :=
  ⟨s.images, rfl⟩

theorem Alike.trans
    {s s' s'' : Session σ}
    (first : s.Alike s')
    (second : s'.Alike s'') :
    s.Alike s'' := by
  obtain ⟨_, rfl⟩ := first
  obtain ⟨images, rfl⟩ := second
  exact ⟨images, rfl⟩

/-- A product changes nothing but the list of images. -/
theorem Alike.place
    (s : Session σ)
    (h : Handle)
    (product : Product) :
    s.Alike (s.place h product) := by
  cases product <;> exact ⟨_, rfl⟩

/-- Each visit begins in the session that the one before it left, after its report. -/
def InTurn (inv : Invocation) : Session σ → List (Visit σ) → Session σ → Prop
  | s, [], s' => s.Alike s'
  | s, v :: rest, s' => s.Alike v.before ∧ InTurn inv (v.reported inv) rest s'

theorem InTurn.of_alike
    {inv : Invocation}
    {s s' s'' : Session σ}
    {visits : List (Visit σ)}
    (inTurn : InTurn inv s' visits s'')
    (alike : s.Alike s') :
    InTurn inv s visits s'' := by
  cases visits with
  | nil => exact alike.trans inTurn
  | cons v rest => exact ⟨alike.trans inTurn.1, inTurn.2⟩

/-- What some visits did with the first of the images `todo`, which stand behind the images
`done`. -/
structure Visited (operator : ImageOperator) (inv : Invocation) (done todo : List Image)
    (s : Session σ) (visits : List (Visit σ)) (s' : Session σ) : Prop where
  /-- The images are visited in list order, each at most once, and no other image is. -/
  inOrder : visits.map Visit.found = todo.take visits.length
  /-- The operator acts on each image in line with the settings of that moment. -/
  acted : ∀ v ∈ visits,
    actOnImage engine operator inv v.given v.before = (v.outcome, v.after)
  /-- The visits are chained from the session before the first to the one after the last. -/
  inTurn : InTurn inv s visits s'
  /-- During a visit the products so far are in front of the open place, and the images that are
  not visited yet are behind it as they were. -/
  places : ∀ earlier v later, visits = earlier ++ v :: later →
    v.before.images.places = (done ++ earlier.flatMap Visit.made).map some ++
      none :: (todo.drop (earlier.length + 1)).map some
  /-- Each fault is reported once, and nothing else is. -/
  incidents : s'.log.incidents = s.log.incidents ++ visits.filterMap (Visit.incident? inv)
  /-- No place stays open. -/
  whole : s'.images.Whole
  /-- The products of the visits are put together in order, and the images that were not visited
  follow as they were. -/
  images : s'.images.toList = done ++ visits.flatMap Visit.made ++ todo.drop visits.length

/-- All images are visited without a fatal fault, or the last visit is the first with one, and the
caller is told under the option as written. -/
def Verdict (inv : Invocation) (todo : List Image) (visits : List (Visit σ))
    (fatal? : Option Fatal) : Prop :=
  (fatal? = none ∧ visits.length = todo.length ∧ ∀ v ∈ visits, v.fatal? inv = none) ∨
    ∃ earlier last fault, visits = earlier ++ [last] ∧ (∀ v ∈ earlier, v.fatal? inv = none) ∧
      last.outcome = .error fault ∧ fault.isFatal ∧ fatal? = some ⟨fault, inv.option⟩

section Passes

variable {engine} {operator : ImageOperator} {inv : Invocation} {done todo : List Image}
  {s s' : Session σ} {visits : List (Visit σ)} {fatal? : Option Fatal}

theorem Visited.nil
    (whole : s.images.Whole)
    (images : s.images.toList = done ++ todo) :
    Visited engine operator inv done todo s [] s where
  inOrder := rfl
  acted v mem := absurd mem List.not_mem_nil
  inTurn := .refl s
  places earlier v later split := by simp at split
  incidents := (List.append_nil _).symm
  whole := whole
  images := by simpa using images

/-- A visit comes before the visits that follow it. -/
theorem Visited.cons
    {front rest : List Handle}
    {h : Handle}
    {image : Image}
    (whole : s.images.Whole)
    (cut : s.images.CutAt front h rest done image todo)
    (later : Visited engine operator inv
      (done ++ (s.visit engine operator inv h image).made) todo
      ((s.visit engine operator inv h image).closed inv h) visits s') :
    Visited engine operator inv done (image :: todo) s
      (s.visit engine operator inv h image :: visits) s' := by
  have before : (s.visit engine operator inv h image).before =
      { s with images := (s.images.take h).2 } := rfl
  have incidents := visit_incidents engine operator inv h image s
  constructor
  case inOrder =>
    rw [List.map_cons, later.inOrder]
    rfl
  case acted =>
    intro v mem
    rcases List.mem_cons.mp mem with rfl | behind
    · rfl
    · exact later.acted v behind
  case inTurn => exact ⟨⟨_, before⟩, later.inTurn.of_alike (.place _ _ _)⟩
  case places =>
    intro earlier v behind split
    cases earlier with
    | nil =>
        obtain ⟨rfl, rfl⟩ := List.cons.inj split
        simpa [before] using cut.take_places whole
    | cons first earlier =>
        obtain ⟨rfl, rfl⟩ := List.cons.inj split
        simpa using later.places earlier v behind rfl
  case incidents =>
    rw [later.incidents, incidents, List.append_assoc, List.filterMap_cons]
    cases (s.visit engine operator inv h image).incident? inv <;> rfl
  case whole => exact later.whole
  case images => simpa using later.images

theorem Visited.found_mem
    (visited : Visited engine operator inv done todo s visits s')
    {v : Visit σ}
    (mem : v ∈ visits) :
    v.found ∈ todo := by
  have found : v.found ∈ visits.map Visit.found := List.mem_map_of_mem mem
  rw [visited.inOrder] at found
  exact List.mem_of_mem_take found

theorem Verdict.cons
    {v : Visit σ}
    (goesOn : v.fatal? inv = none)
    {image : Image}
    (later : Verdict inv todo visits fatal?) :
    Verdict inv (image :: todo) (v :: visits) fatal? := by
  rcases later with ⟨none, length, goOn⟩ | ⟨earlier, last, fault, rfl, goOn, stops⟩
  · exact .inl ⟨none, congrArg (· + 1) length, List.forall_mem_cons.mpr ⟨goesOn, goOn⟩⟩
  · exact .inr ⟨v :: earlier, last, fault, rfl, List.forall_mem_cons.mpr ⟨goesOn, goOn⟩, stops⟩

theorem Verdict.stop
    {v : Visit σ}
    {fatal : Fatal}
    (stops : v.fatal? inv = some fatal) :
    Verdict inv todo [v] (some fatal) := by
  obtain ⟨fault, failed, isFatal, rfl⟩ := Visit.fatal?_eq_some_iff.mp stops
  exact .inr ⟨[], v, fault, rfl, fun v mem => absurd mem List.not_mem_nil, failed, isFatal, rfl⟩

/-- From any place on, a pass visits the images in order. -/
theorem visits_visited
    (engine : Engine σ)
    (operator : ImageOperator)
    (inv : Invocation)
    (front rest : List Handle)
    (whole : s.images.Whole)
    (order : s.images.order = front ++ rest)
    (items : s.images.toList = done ++ todo)
    (aligned : front.length = done.length) :
    Visited engine operator inv done todo s (s.visits engine operator inv rest)
        (s.passOver engine operator inv rest).2 ∧
      Verdict inv todo (s.visits engine operator inv rest)
        (s.passOver engine operator inv rest).1 := by
  have total : done.length + todo.length = front.length + rest.length := by
    have := whole.wellFormed.whole_iff.mp whole
    rwa [items, Reel.length, order, List.length_append, List.length_append] at this
  induction rest generalizing s front done todo with
  | nil =>
      obtain rfl : todo = [] := List.length_eq_zero_iff.mp (by simp at total; omega)
      exact ⟨.nil whole items, .inl ⟨rfl, rfl, fun v mem => absurd mem List.not_mem_nil⟩⟩
  | cons h rest inductionHypothesis =>
      cases todo with
      | nil => simp only [List.length_nil, List.length_cons] at total; omega
      | cons image todo =>
          have cut : s.images.CutAt front h rest done image todo := ⟨order, items, aligned⟩
          obtain ⟨handles, madeLength, order', items'⟩ := visit_cut engine operator inv whole cut
          have whole' := visit_whole engine operator inv h image whole
          rw [passOver_of_found (cut.get?_eq whole), visits, cut.get?_eq whole]
          dsimp only
          cases stopped : (s.visit engine operator inv h image).fatal? inv with
          | some fatal => exact ⟨.cons whole cut (.nil whole' items'), .stop stopped⟩
          | none =>
              obtain ⟨visited, verdict⟩ := inductionHypothesis (front ++ handles) whole'
                order' items' (by simp [madeLength, aligned])
                (by simp at total ⊢; omega)
              exact ⟨.cons whole cut visited, .cons stopped verdict⟩

end Passes

/-! ## The whole list -/

/-- An operator on one image visits the images of the list in order, up to the first fatal fault.
-/
theorem applyToImages_visits
    (engine : Engine σ)
    (option : String)
    (first? second? : Option String)
    {operator : ImageOperator}
    (named : ImageOperator.named? (Invocation.of option first? second?).name = some operator)
    {s : Session σ}
    (whole : s.images.Whole)
    (nonempty : s.images.isEmpty = false) :
    ∃ visits : List (Visit σ),
      Visited engine operator (Invocation.of option first? second?) [] s.images.toList s visits
          (s.applyToImages engine option first? second?).2 ∧
        Verdict (Invocation.of option first? second?) s.images.toList visits
          (s.applyToImages engine option first? second?).1 := by
  have pass : s.applyToImages engine option first? second? =
      s.passOver engine operator (Invocation.of option first? second?) s.images.order := by
    simp [applyToImages, named, nonempty]
  rw [pass]
  exact ⟨_, visits_visited engine operator _ [] s.images.order whole rfl rfl rfl⟩

/-- An engine that counts its requests and parts every image in two. -/
def parting : Engine Nat where
  read _ n := (.ok [], n + 1)
  write _ _ n := (.ok (), n + 1)
  transform image _ n := (.ok (.parts [image, image]), n + 1)
  assemble images _ n := (.ok images, n + 1)
  readText _ _ := .error "none"
  readBytes _ _ := .error "none"
  formats := []
  fonts := []

/-- Two images are parted by two requests; the four that come out are not visited. -/
theorem visits_of_parted_images :
    let s : Session Nat := { images := .ofList [default, default], world := 0 }
    let inv := Invocation.of "-flip" none none
    let ended := s.applyToImages parting "-flip" none none
    ImageOperator.named? inv.name = some (.always .flip) ∧ s.images.Whole ∧
      s.images.isEmpty = false ∧
      (∃ visits, Visited parting (.always .flip) inv [] s.images.toList s visits ended.2 ∧
        Verdict inv s.images.toList visits ended.1) ∧
      ended.2.world = 2 ∧ ended.2.images.toList.length = 4 := by
  intro s inv ended
  have named : ImageOperator.named? inv.name = some (.always .flip) := rfl
  have whole : s.images.Whole := .ofList _
  have nonempty : s.images.isEmpty = false := rfl
  exact ⟨named, whole, nonempty,
    applyToImages_visits parting "-flip" none none named whole nonempty,
    by decide, by decide⟩

end Session
end Darkroom
