import Darkroom.Proofs.Session.Attempts

/-!
# What options cannot see

Options never read the log or what was caught, and they know their world only through the engine.
So a session can be recast: it gets another record of incidents, and a world that shows less, with
an engine that does the same in it.  Every option then comes to the same outcome, and the session
after it is the recast one.  Its attempts are added to the log it is given, whatever that log is.
-/

namespace Darkroom

/-- The coarse engine does in the worlds that `view` shows what the fine engine does in its own. -/
structure Engine.Lifts {τ σ : Type} (view : τ → σ) (fine : Engine τ) (coarse : Engine σ) :
    Prop where
  read : ∀ request w, coarse.read request (view w) = (fine.read request w).map id view
  write : ∀ images request w,
    coarse.write images request (view w) = (fine.write images request w).map id view
  transform : ∀ image op w,
    coarse.transform image op (view w) = (fine.transform image op w).map id view
  assemble : ∀ images op w,
    coarse.assemble images op (view w) = (fine.assemble images op w).map id view
  readText : ∀ w, coarse.readText (view w) = fine.readText w
  readBytes : ∀ w, coarse.readBytes (view w) = fine.readBytes w
  formats : coarse.formats = fine.formats
  fonts : coarse.fonts = fine.fonts

theorem Engine.Lifts.refl {σ : Type} (engine : Engine σ) : Engine.Lifts id engine engine where
  read _ _ := rfl
  write _ _ _ := rfl
  transform _ _ _ := rfl
  assemble _ _ _ := rfl
  readText _ := rfl
  readBytes _ := rfl
  formats := rfl
  fonts := rfl

namespace Session

variable {τ σ α : Type}

/-- The session in the world that `view` shows, with another record of incidents. -/
def recast (view : τ → σ) (log : IncidentLog) (caught : List Incident) (s : Session τ) :
    Session σ where
  images := s.images
  settings := s.settings
  scopes := s.scopes
  saved := s.saved
  cache := s.cache
  limits := s.limits
  log := log
  caught := caught
  printed := s.printed
  world := view s.world

/-- An outcome, and the session after it recast. -/
def recastEnd (view : τ → σ) (log : IncidentLog) (caught : List Incident)
    (ended : α × Session τ) : α × Session σ :=
  (ended.1, ended.2.recast view log caught)

section

variable {view : τ → σ} {fine : Engine τ} {coarse : Engine σ} {log : IncidentLog}
  {caught : List Incident}

@[simp] theorem recast_images (s : Session τ) : (s.recast view log caught).images = s.images := rfl

@[simp] theorem recast_settings (s : Session τ) :
    (s.recast view log caught).settings = s.settings := rfl

@[simp] theorem recast_scopes (s : Session τ) : (s.recast view log caught).scopes = s.scopes := rfl

@[simp] theorem recast_saved (s : Session τ) : (s.recast view log caught).saved = s.saved := rfl

@[simp] theorem recast_cache (s : Session τ) : (s.recast view log caught).cache = s.cache := rfl

@[simp] theorem recast_limits (s : Session τ) : (s.recast view log caught).limits = s.limits := rfl

@[simp] theorem recast_world (s : Session τ) :
    (s.recast view log caught).world = view s.world := rfl

@[simp] theorem recast_readRequest (source : String) (ping : Bool) (s : Session τ) :
    (s.recast view log caught).readRequest source ping = s.readRequest source ping := rfl

@[simp] theorem recastEnd_mk (a : α) (s : Session τ) :
    recastEnd view log caught (a, s) = (a, s.recast view log caught) := rfl

theorem place_recast
    (s : Session τ)
    (h : Handle)
    (product : Product) :
    (s.recast view log caught).place h product = (s.place h product).recast view log caught := by
  cases product <;> rfl

/-- A visit of which both sessions are recast. -/
def Visit.recast (view : τ → σ) (log : IncidentLog) (caught : List Incident) (v : Visit τ) :
    Visit σ where
  found := v.found
  before := v.before.recast view log caught
  outcome := v.outcome
  after := v.after.recast view log caught

@[simp] theorem Visit.recast_fatal? (inv : Invocation) (v : Visit τ) :
    (v.recast view log caught).fatal? inv = v.fatal? inv := rfl

/-- What a visit reports is added to the log the session is given. -/
theorem Visit.closed_recast
    (inv : Invocation)
    (h : Handle)
    (v : Visit τ) :
    (v.recast view log caught).closed inv h =
      (v.closed inv h).recast view (log.after [.of inv v.outcome]) caught := by
  obtain ⟨found, before, outcome, after⟩ := v
  cases outcome with
  | error fault =>
      rw [IncidentLog.after_error]
      rfl
  | ok product =>
      rw [IncidentLog.after_ok]
      cases product <;> rfl

theorem settle_recast
    (inv : Invocation)
    (acted : Acted τ Unit) :
    settle inv (recastEnd view log caught acted) =
      recastEnd view (log.after [.of inv acted.1]) caught (settle inv acted) := by
  rcases acted with ⟨_ | done, s⟩
  · simp [settle]
    rfl
  · simp [settle]

/-! ## Brackets and clones -/

theorem saveSettings_recast
    (s : Session τ) :
    (s.recast view log caught).saveSettings = s.saveSettings.map (recast view log caught) := by
  rw [saveSettings, saveSettings, recast_saved, recast_settings]
  cases s.saved.push s.settings.image <;> rfl

theorem restoreSettings_recast
    (s : Session τ) :
    (s.recast view log caught).restoreSettings =
      s.restoreSettings.map (recast view log caught) := by
  rw [restoreSettings, restoreSettings, recast_saved]
  cases s.saved.pop <;> rfl

theorem openScope_recast
    (s : Session τ) :
    (s.recast view log caught).openScope = s.openScope.map (recast view log caught) := by
  rw [openScope, openScope, recast_settings, recast_saved, recast_scopes, recast_images]
  split
  · rfl
  · cases s.scopes.push s.images with
    | error refusal => rfl
    | ok scopes =>
        dsimp only
        split
        · exact saveSettings_recast { s with scopes, images := {} }
        · rfl

theorem closeScope_recast
    (s : Session τ) :
    (s.recast view log caught).closeScope = s.closeScope.map (recast view log caught) := by
  rw [closeScope, closeScope, recast_scopes, recast_saved, recast_images]
  rcases s.scopes.pop with _ | ⟨outer, scopes⟩
  · rfl
  · dsimp only
    cases s.saved.top? with
    | none => rfl
    | some settings =>
        dsimp only
        split
        · exact restoreSettings_recast { s with scopes, images := outer.append s.images }
        · rfl

theorem cloneScenes_recast
    (scenes : String)
    (s : Session τ) :
    (s.recast view log caught).cloneScenes scenes =
      (s.cloneScenes scenes).map (recast view log caught) := by
  rw [cloneScenes, cloneScenes, recast_scopes]
  split
  · rfl
  · cases s.scopes.top?.filter fun outer => !outer.isEmpty with
    | none => rfl
    | some outer =>
        dsimp only
        cases (Scenes.parse scenes outer.length).toOption.bind outer.copies? <;> rfl

/-- Options that are steps of their own need no engine. -/
theorem ofStep_recast
    {fine : Engine τ}
    {coarse : Engine σ}
    {act : Invocation → Session τ → Except Fault (Session τ)}
    {act' : Invocation → Session σ → Except Fault (Session σ)}
    (same : ∀ inv s, act' inv (s.recast view log caught) =
      (act inv s).map (recast view log caught))
    (inv : Invocation)
    (s : Session τ) :
    (SpecialOption.ofStep act').act coarse inv (s.recast view log caught) =
      recastEnd view log caught ((SpecialOption.ofStep act).act fine inv s) := by
  dsimp only [SpecialOption.ofStep]
  rw [same]
  cases act inv s <;> rfl

theorem clone_recast
    (inv : Invocation)
    (s : Session τ) :
    SpecialOption.clone.act coarse inv (s.recast view log caught) =
      recastEnd view log caught (SpecialOption.clone.act fine inv s) := by
  refine ofStep_recast (fun inv s => ?_) inv s
  cases inv.normal with
  | false => exact cloneScenes_recast "-1" s
  | true =>
      cases inv.first with
      | error fault => rfl
      | ok scenes => exact cloneScenes_recast scenes s

variable (lifts : Engine.Lifts view fine coarse)
include lifts

theorem recast_view
    (s : Session τ) :
    (s.recast view log caught).view coarse = s.view fine := by
  rw [Session.view, Session.view, recast_world, lifts.readText, lifts.readBytes]
  rfl

/-! ## Settings -/

theorem auxiliaryImage_recast
    (path : String)
    (s : Session τ) :
    (s.recast view log caught).auxiliaryImage coarse path =
      recastEnd view log caught (s.auxiliaryImage fine path) := by
  rw [auxiliaryImage, auxiliaryImage, recast_cache, recast_readRequest, recast_world, lifts.read]
  cases s.cache.get? path with
  | some image => rfl
  | none =>
      rcases fine.read (s.readRequest path false) s.world with ⟨_ | frames, world⟩
      · rfl
      · cases frames <;> rfl

theorem performSetting_recast
    (plan : SettingPlan)
    (s : Session τ) :
    (s.recast view log caught).performSetting coarse plan =
      recastEnd view log caught (s.performSetting fine plan) := by
  cases plan with
  | set settings => rfl
  | limits memory map => rfl
  | pattern path install =>
      rw [performSetting, performSetting, auxiliaryImage_recast lifts]
      rcases s.auxiliaryImage fine path with ⟨_ | image, after⟩ <;> rfl

theorem actOnSetting_recast
    (setting : SettingOption)
    (inv : Invocation)
    (s : Session τ) :
    (s.recast view log caught).actOnSetting coarse setting inv =
      recastEnd view log caught (s.actOnSetting fine setting inv) := by
  rw [actOnSetting, actOnSetting, recast_settings]
  cases setting s.settings inv with
  | error fault => rfl
  | ok plan => exact performSetting_recast lifts plan s

/-! ## Operators on one image -/

theorem performOnImage_recast
    (image : Image)
    (plan : ImagePlan)
    (s : Session τ) :
    (s.recast view log caught).performOnImage coarse image plan =
      recastEnd view log caught (s.performOnImage fine image plan) := by
  cases plan with
  | keep image => rfl
  | setOption key value? image => rfl
  | print text => rfl
  | apply op finish =>
      rw [performOnImage, performOnImage, recast_world, lifts.transform]
      rfl

theorem actOnImage_recast
    (operator : ImageOperator)
    (inv : Invocation)
    (image : Image)
    (s : Session τ) :
    (s.recast view log caught).actOnImage coarse operator inv image =
      recastEnd view log caught (s.actOnImage fine operator inv image) := by
  rw [actOnImage, actOnImage, recast_view lifts]
  cases operator (s.view fine) image inv with
  | error fault => rfl
  | ok plan => exact performOnImage_recast lifts image plan s

theorem visit_recast
    (operator : ImageOperator)
    (inv : Invocation)
    (h : Handle)
    (image : Image)
    (s : Session τ) :
    (s.recast view log caught).visit coarse operator inv h image =
      (s.visit fine operator inv h image).recast view log caught := by
  have acted :
      (recast view log caught { s with images := (s.images.take h).2 }).actOnImage coarse operator
        inv (s.settings.image.sync image) = _ :=
    actOnImage_recast lifts operator inv _ _
  exact congrArg (fun ended => Visit.mk image _ ended.1 ended.2) acted

theorem passOver_recast
    (operator : ImageOperator)
    (inv : Invocation)
    (handles : List Handle)
    (s : Session τ) :
    (s.recast view log caught).passOver coarse operator inv handles =
      recastEnd view
        (log.after ((s.visits fine operator inv handles).map fun v => .of inv v.outcome)) caught
        (s.passOver fine operator inv handles) := by
  induction handles generalizing s log with
  | nil => simp [passOver, visits]
  | cons h rest inductionHypothesis =>
      cases found : s.images.get? h with
      | none =>
          rw [passOver_of_taken found, passOver_of_taken (s := s.recast view log caught) found,
            inductionHypothesis, visits, found]
      | some image =>
          rw [passOver_of_found found, passOver_of_found (s := s.recast view log caught) found,
            visits, found, visit_recast lifts]
          simp only [Visit.closed_recast, Visit.recast_fatal?]
          cases (s.visit fine operator inv h image).fatal? inv with
          | some stopped => rfl
          | none =>
              dsimp only
              rw [inductionHypothesis, ← IncidentLog.after_cons]
              rfl

/-! ## Operators on the list -/

theorem remapOver_recast
    (reference : Image)
    (dither : Bool)
    (handles : List Handle)
    (s : Session τ) :
    (s.recast view log caught).remapOver coarse reference dither handles =
      recastEnd view log caught (s.remapOver fine reference dither handles) := by
  induction handles generalizing s with
  | nil => rfl
  | cons h rest inductionHypothesis =>
      have taken : (s.recast view log caught).images.take h = s.images.take h := rfl
      rw [remapOver, remapOver, taken]
      rcases s.images.take h with ⟨_ | image, images⟩
      · exact inductionHypothesis s
      · have acted :
            (recast view log caught { s with images }).performOnImage coarse image
              (.apply (.remap reference dither) id) = _ :=
          performOnImage_recast lifts image _ _
        simp only [recast] at acted ⊢
        rw [acted]
        rcases performOnImage fine image (.apply (.remap reference dither) id) { s with images }
          with ⟨_ | product, after⟩
        · rfl
        · simp only [recastEnd_mk, place_recast]
          exact inductionHypothesis _

theorem assemble_recast
    (operands : List Image)
    (op : Assembly)
    (s : Session τ) :
    (s.recast view log caught).assemble coarse operands op =
      recastEnd view log caught (s.assemble fine operands op) := by
  rw [assemble, assemble, recast_world, lifts.assemble]
  rcases fine.assemble operands op s.world with ⟨_ | images, world⟩ <;> rfl

theorem writeImages_recast
    (request : WriteRequest)
    (rename : Bool)
    (s : Session τ) :
    (s.recast view log caught).writeImages coarse request rename =
      recastEnd view log caught (s.writeImages fine request rename) := by
  rw [writeImages, writeImages, recast_images, recast_world, lifts.write]
  rcases fine.write s.images.toList request s.world with ⟨_ | done, world⟩ <;> rfl

theorem performOnList_recast
    (plan : ListPlan)
    (s : Session τ) :
    (s.recast view log caught).performOnList coarse plan =
      recastEnd view log caught (s.performOnList fine plan) := by
  cases plan with
  | assemble op =>
      exact assemble_recast lifts s.images.intoList op
        { s with images := .ofList s.images.intoList }
  | assembleFrom operands op => exact assemble_recast lifts operands op s
  | rearrange images => rfl
  | refuse images fault => rfl
  | remap path dither =>
      rw [performOnList, performOnList, auxiliaryImage_recast lifts]
      rcases s.auxiliaryImage fine path with ⟨_ | reference, after⟩
      · rfl
      · exact remapOver_recast lifts reference dither after.images.order after
  | limit resource limit => rfl
  | print text => rfl
  | write request rename => exact writeImages_recast lifts request rename s

theorem actOnList_recast
    (operator : ListOperator)
    (inv : Invocation)
    (s : Session τ) :
    (s.recast view log caught).actOnList coarse operator inv =
      recastEnd view log caught (s.actOnList fine operator inv) := by
  have synced : (s.recast view log caught).syncAll = s.syncAll.recast view log caught := rfl
  rw [actOnList, actOnList, synced, recast_view lifts, recast_images, recast_images]
  split
  · rfl
  · cases operator (s.syncAll.view fine) s.syncAll.images inv with
    | error fault => rfl
    | ok plan => exact performOnList_recast lifts plan s.syncAll

/-! ## Options of the session as a whole -/

theorem read_recast
    (inv : Invocation)
    (s : Session τ) :
    SpecialOption.read.act coarse inv (s.recast view log caught) =
      recastEnd view log caught (SpecialOption.read.act fine inv s) := by
  dsimp only [SpecialOption.read]
  cases inv.first with
  | error fault => rfl
  | ok source =>
      dsimp only
      rw [readImages, readImages, recast_settings, recast_readRequest, recast_world, lifts.read]
      rcases fine.read (s.readRequest source s.settings.image.ping) s.world with
        ⟨_ | images, world⟩ <;> rfl

theorem list_recast
    (inv : Invocation)
    (s : Session τ) :
    SpecialOption.list.act coarse inv (s.recast view log caught) =
      recastEnd view log caught (SpecialOption.list.act fine inv s) := by
  dsimp only [SpecialOption.list]
  rw [lifts.formats, lifts.fonts, recast_limits]
  cases inv.first.bind (Listing.text fine.formats fine.fonts s.limits) <;> rfl

theorem special_recast
    (log : IncidentLog)
    (caught : List Incident)
    (name : String) :
    Option.Rel
      (fun (special : SpecialOption τ) (special' : SpecialOption σ) => ∀ inv s,
        special'.act coarse inv (s.recast view log caught) =
          recastEnd view log caught (special.act fine inv s))
      (SpecialOption.named? name) (SpecialOption.named? name) := by
  unfold SpecialOption.named?
  split
  · exact .some (ofStep_recast fun _ => openScope_recast)
  · exact .some (ofStep_recast fun _ => closeScope_recast)
  · exact .some (ofStep_recast fun _ => saveSettings_recast)
  · exact .some (ofStep_recast fun _ => restoreSettings_recast)
  · exact .some (read_recast lifts)
  · exact .some (read_recast lifts)
  · exact .some clone_recast
  · exact .some (list_recast lifts)
  all_goals first | exact .none | exact .some fun inv s => rfl

/-! ## Options and steps -/

theorem applySetting_recast
    (option : String)
    (first? : Option String)
    (s : Session τ) :
    (s.recast view log caught).applySetting coarse option first? =
      recastEnd view (log.after (s.settingAttempts fine option first?)) caught
        (s.applySetting fine option first?) := by
  rw [applySetting_eq, applySetting_eq, settingAttempts]
  extract_lets inv
  cases SettingOption.named? inv.name with
  | none => simp
  | some setting =>
      dsimp only
      rw [actOnSetting_recast lifts, settle_recast]

theorem applyToImages_recast
    (option : String)
    (first? second? : Option String)
    (s : Session τ) :
    (s.recast view log caught).applyToImages coarse option first? second? =
      recastEnd view (log.after (s.imageAttempts fine option first? second?)) caught
        (s.applyToImages fine option first? second?) := by
  rw [applyToImages, applyToImages, imageAttempts, recast_images]
  cases ImageOperator.named? (Invocation.of option first? second?).name with
  | none => simp
  | some operator =>
      dsimp only
      split
      · exact settle_recast _ (.error .noImages, s)
      · exact passOver_recast lifts operator _ s.images.order s

theorem applyToList_recast
    (option : String)
    (first? second? : Option String)
    (s : Session τ) :
    (s.recast view log caught).applyToList coarse option first? second? =
      recastEnd view (log.after (s.listAttempts fine option first? second?)) caught
        (s.applyToList fine option first? second?) := by
  rw [applyToList_eq, applyToList_eq, listAttempts]
  extract_lets inv
  cases ListOperator.named? inv.name with
  | none => simp
  | some operator =>
      dsimp only
      rw [actOnList_recast lifts, settle_recast]

theorem applySpecial_recast
    (option : String)
    (first? : Option String)
    (s : Session τ) :
    (s.recast view log caught).applySpecial coarse option first? =
      recastEnd view (log.after (s.specialAttempts fine option first?)) caught
        (s.applySpecial fine option first?) := by
  rw [applySpecial, applySpecial, specialAttempts]
  have same := special_recast lifts log caught (Invocation.of option first? none).name
  revert same
  cases (SpecialOption.named? _ : Option (SpecialOption τ)) <;>
    cases (SpecialOption.named? _ : Option (SpecialOption σ))
  · simp
  · rintro ⟨⟩
  · rintro ⟨⟩
  · rintro ⟨same⟩
    dsimp only
    rw [same, settle_recast]

theorem apply_recast
    (kind : OptionKind)
    (option : String)
    (first? second? : Option String)
    (s : Session τ) :
    (s.recast view log caught).apply coarse kind option first? second? =
      recastEnd view (log.after (s.applyAttempts fine kind option first? second?)) caught
        (s.apply fine kind option first? second?) := by
  cases kind with
  | special => exact applySpecial_recast lifts option first? s
  | setting => exact applySetting_recast lifts option first? s
  | image => exact applyToImages_recast lifts option first? second? s
  | list => exact applyToList_recast lifts option first? second? s
  | settingAndImage =>
      rw [apply, apply, applySetting_recast lifts, applyAttempts, IncidentLog.after_append]
      rcases s.applySetting fine option first? with ⟨_ | fatal, after⟩
      · dsimp only [recastEnd_mk]
        rw [recast_images]
        split
        · simp
        · exact applyToImages_recast lifts option first? second? after
      · simp

/-- What an option comes to does not depend on the record of incidents, and its attempts are all
that it adds to the log. -/
theorem perform_recast
    (step : CommandStep)
    (s : Session τ) :
    (s.recast view log caught).perform coarse step =
      recastEnd view (log.after (s.stepAttempts fine step)) caught (s.perform fine step) := by
  cases step with
  | read source => exact applySpecial_recast lifts "read" (some source) s
  | apply entry option arguments => exact apply_recast lifts entry.kind option _ _ s
  | unknown option => rfl
  | incomplete option => rfl

end

/-! ## Whole calls -/

section

variable (engine : Engine σ) (s : Session σ)

theorem apply_eq_recastEnd
    (kind : OptionKind)
    (option : String)
    (first? second? : Option String) :
    s.apply engine kind option first? second? =
      recastEnd id (s.log.after (s.applyAttempts engine kind option first? second?)) s.caught
        (s.apply engine kind option first? second?) :=
  apply_recast (.refl engine) kind option first? second? s

theorem perform_eq_recastEnd
    (step : CommandStep) :
    s.perform engine step =
      recastEnd id (s.log.after (s.stepAttempts engine step)) s.caught (s.perform engine step) :=
  perform_recast (.refl engine) step s

@[simp] theorem apply_log (kind : OptionKind) (option : String) (first? second? : Option String) :
    (s.apply engine kind option first? second?).2.log =
      s.log.after (s.applyAttempts engine kind option first? second?) :=
  congrArg (·.2.log) (apply_eq_recastEnd engine s kind option first? second?)

@[simp] theorem apply_caught
    (kind : OptionKind)
    (option : String)
    (first? second? : Option String) :
    (s.apply engine kind option first? second?).2.caught = s.caught :=
  congrArg (·.2.caught) (apply_eq_recastEnd engine s kind option first? second?)

@[simp] theorem perform_log (step : CommandStep) :
    (s.perform engine step).2.log = s.log.after (s.stepAttempts engine step) :=
  congrArg (·.2.log) (perform_eq_recastEnd engine s step)

@[simp] theorem perform_caught (step : CommandStep) :
    (s.perform engine step).2.caught = s.caught :=
  congrArg (·.2.caught) (perform_eq_recastEnd engine s step)

end

section

variable {view : τ → σ} {fine : Engine τ} {coarse : Engine σ}

/-- The session in the world that `view` shows. -/
def through (view : τ → σ) (s : Session τ) : Session σ :=
  s.recast view s.log s.caught

/-- An outcome, and the session after it in the world that `view` shows. -/
def throughEnd (view : τ → σ) (ended : α × Session τ) : α × Session σ :=
  (ended.1, ended.2.through view)

@[simp] theorem throughEnd_mk (a : α) (s : Session τ) :
    throughEnd view (a, s) = (a, s.through view) := rfl

@[simp] theorem throughEnd_snd (ended : α × Session τ) :
    (throughEnd view ended).2 = ended.2.through view := rfl

@[simp] theorem catchIncidents_through (s : Session τ) (all : Bool) :
    (s.through view).catchIncidents all = throughEnd view (s.catchIncidents all) := by
  unfold catchIncidents
  change (if s.log.worst? == some .fatal && !all then _ else _) = _
  dsimp only
  split <;> rfl

theorem finish_through
    (s : Session τ) :
    (s.through view).finish = s.finish.through view := by
  unfold finish
  change (if s.scopes.isEmpty then _ else _) = _
  split
  · rfl
  · exact congrArg Prod.snd (catchIncidents_through (s.report .unbalanced endOfArguments) false)

variable (lifts : Engine.Lifts view fine coarse)
include lifts

theorem apply_through
    (kind : OptionKind)
    (option : String)
    (first? second? : Option String)
    (s : Session τ) :
    (s.through view).apply coarse kind option first? second? =
      throughEnd view (s.apply fine kind option first? second?) := by
  rw [through, apply_recast lifts, throughEnd, through, apply_log, apply_caught]
  rfl

theorem perform_through
    (step : CommandStep)
    (s : Session τ) :
    (s.through view).perform coarse step = throughEnd view (s.perform fine step) := by
  rw [through, perform_recast lifts, throughEnd, through, perform_log, perform_caught]
  rfl

theorem performAll_through
    (steps : List CommandStep)
    (s : Session τ) :
    (s.through view).performAll coarse steps = throughEnd view (s.performAll fine steps) := by
  induction steps generalizing s with
  | nil => rfl
  | cons step rest inductionHypothesis =>
      rw [performAll, performAll, perform_through lifts]
      rcases s.perform fine step with ⟨_ | fatal, after⟩
      · simpa using inductionHypothesis _
      · rfl

/-- A call comes to the same in a world that shows less, and leaves the session that shows less. -/
theorem call_through
    (c : Call)
    (s : Session τ) :
    (s.through view).call coarse c = throughEnd view (s.call fine c) := by
  cases c with
  | setting option first? => exact apply_through lifts .setting option first? none s
  | image option first? second? => exact apply_through lifts .image option first? second? s
  | list option first? second? => exact apply_through lifts .list option first? second? s
  | special option first? => exact apply_through lifts .special option first? none s
  | run tokens =>
      rw [call, call, run, run, performAll_through lifts]
      rcases s.performAll fine (CommandStep.parse tokens) with ⟨_ | fatal, after⟩
      · simpa using finish_through after
      · rfl

end
end Session
end Darkroom
