import Darkroom.Proofs.Operators.List
import Darkroom.Proofs.Session.Pass
import Darkroom.Session.Run

/-!
# What every session keeps

The list of images that options act on and all lists that round brackets have put aside are whole,
and neither stack of brackets grows beyond its limit.  Every call keeps this, whatever the engine
answers and whether or not the call ends with a fatal fault.

Calls of most kinds touch no list.  A call that does replaces the list of images by one that is
whole again, or moves lists between the session and its stack.
-/

namespace Darkroom

namespace Nesting

variable {α : Type} {n n' : Nesting α}

/-- The stack has the standard limit and stays under it. -/
structure Bounded (n : Nesting α) : Prop where
  /-- The limit is the standard one. -/
  limit : n.limit = standardLimit
  /-- The depth is within the limit. -/
  depth_le : n.depth ≤ n.limit

theorem push_eq_ok_iff
    {frame : α} :
    n.push frame = .ok n' ↔ n.depth < n.limit ∧ { n with frames := frame :: n.frames } = n' := by
  rw [push, isFull]
  by_cases full : n.limit ≤ n.depth
  · simp [full, Nat.not_lt.mpr full]
  · simp [full, Nat.lt_of_not_le full]

theorem pop_eq_ok_iff
    {frame : α} :
    n.pop = .ok (frame, n') ↔
      n.frames = frame :: n'.frames ∧ n.limit = n'.limit := by
  obtain ⟨frames, limit⟩ := n
  obtain ⟨frames', limit'⟩ := n'
  cases frames with
  | nil => simp [pop]
  | cons first rest => simp [pop, and_assoc]

namespace Bounded

theorem initial : ({} : Nesting α).Bounded :=
  ⟨rfl, Nat.zero_le _⟩

theorem push
    (bounded : n.Bounded)
    {frame : α}
    (pushed : n.push frame = .ok n') :
    n'.Bounded := by
  obtain ⟨room, rfl⟩ := push_eq_ok_iff.mp pushed
  exact ⟨bounded.limit, room⟩

theorem pop
    (bounded : n.Bounded)
    {frame : α}
    (popped : n.pop = .ok (frame, n')) :
    n'.Bounded := by
  obtain ⟨frames, limit⟩ := pop_eq_ok_iff.mp popped
  have depth : n.frames.length ≤ n.limit := bounded.depth_le
  rw [frames, List.length_cons, limit] at depth
  exact ⟨limit ▸ bounded.limit, Nat.le_of_succ_le depth⟩

theorem depth_le_standard
    (bounded : n.Bounded) :
    n.depth ≤ standardLimit :=
  bounded.limit ▸ bounded.depth_le

end Bounded
end Nesting

namespace Session

variable {σ : Type} {s s' : Session σ} (engine : Engine σ)

/-- What every reachable session satisfies. -/
structure Sound (s : Session σ) : Prop where
  /-- The list that options act on is whole. -/
  images : s.images.Whole
  /-- The lists put aside are whole. -/
  scopes : ∀ outer ∈ s.scopes.frames, outer.Whole
  /-- Round brackets are nested up to the limit. -/
  scopes_bounded : s.scopes.Bounded
  /-- Curly brackets are nested up to the limit. -/
  saved_bounded : s.saved.Bounded

theorem Sound.initial
    (world : σ) :
    Sound { world } where
  images := .empty
  scopes _ mem := absurd mem List.not_mem_nil
  scopes_bounded := .initial
  saved_bounded := .initial

/-! ## Calls that touch no list -/

/-- Two sessions with the same lists and the same brackets. -/
structure SameLists (s s' : Session σ) : Prop where
  /-- The list of images is the same. -/
  images : s'.images = s.images
  /-- The lists put aside are the same. -/
  scopes : s'.scopes = s.scopes
  /-- The settings put aside are the same. -/
  saved : s'.saved = s.saved

theorem SameLists.refl
    (s : Session σ) :
    s.SameLists s :=
  ⟨rfl, rfl, rfl⟩

theorem SameLists.trans
    {s'' : Session σ}
    (first : s.SameLists s')
    (second : s'.SameLists s'') :
    s.SameLists s'' :=
  ⟨second.images.trans first.images, second.scopes.trans first.scopes,
    second.saved.trans first.saved⟩

/-- Another list of images that is whole. -/
theorem Sound.withImages
    (sound : s.Sound)
    {images : Reel Image}
    (whole : images.Whole) :
    Sound { s with images } :=
  ⟨whole, sound.scopes, sound.scopes_bounded, sound.saved_bounded⟩

theorem Sound.sameLists
    (sound : s.Sound)
    (same : s.SameLists s') :
    s'.Sound where
  images := same.images ▸ sound.images
  scopes := same.scopes ▸ sound.scopes
  scopes_bounded := same.scopes ▸ sound.scopes_bounded
  saved_bounded := same.saved ▸ sound.saved_bounded

theorem settle_sameLists
    (inv : Invocation)
    (acted : Acted σ Unit) :
    acted.2.SameLists (settle inv acted).2 := by
  obtain ⟨outcome, after⟩ := acted
  cases outcome <;> exact ⟨rfl, rfl, rfl⟩

theorem catchIncidents_sameLists
    (s : Session σ)
    (all : Bool) :
    s.SameLists (s.catchIncidents all).2 := by
  unfold catchIncidents
  extract_lets fatal
  split <;> exact ⟨rfl, rfl, rfl⟩

/-- How the image of a path is found: in the cache, or by a read whose first image is cached. -/
inductive Loaded (engine : Engine σ) (path : String) (s : Session σ) : Acted σ Image → Prop
  | cached {image : Image}
      (found : s.cache.get? path = some image) :
      Loaded engine path s (.ok image, s)
  | refused {refusal : EngineFault}
      (missed : s.cache.get? path = none)
      (answer : (engine.read (s.readRequest path false) s.world).1 = .error refusal) :
      Loaded engine path s
        (.error (refusal.toReadFault path),
          { s with world := (engine.read (s.readRequest path false) s.world).2 })
  | empty
      (missed : s.cache.get? path = none)
      (answer : (engine.read (s.readRequest path false) s.world).1 = .ok []) :
      Loaded engine path s
        (.error (.unreadable path "no images"),
          { s with world := (engine.read (s.readRequest path false) s.world).2 })
  | stored {image : Image} {rest : List Image}
      (missed : s.cache.get? path = none)
      (answer : (engine.read (s.readRequest path false) s.world).1 = .ok (image :: rest)) :
      Loaded engine path s
        (.ok image,
          { s with
            world := (engine.read (s.readRequest path false) s.world).2
            cache := s.cache.store path (image :: rest) })

theorem auxiliaryImage_loaded
    (path : String)
    (s : Session σ) :
    Loaded engine path s (s.auxiliaryImage engine path) := by
  unfold auxiliaryImage
  split
  · next image found => exact .cached found
  · next missed =>
    dsimp only
    split
    · next refusal answer => exact .refused missed answer
    · next frames answer =>
      cases frames with
      | nil => exact .empty missed answer
      | cons image rest => exact .stored missed answer

theorem auxiliaryImage_sameLists
    (path : String)
    (s : Session σ) :
    s.SameLists (s.auxiliaryImage engine path).2 := by
  have loaded := auxiliaryImage_loaded engine path s
  generalize s.auxiliaryImage engine path = ended at loaded ⊢
  cases loaded <;> exact ⟨rfl, rfl, rfl⟩

theorem performSetting_sameLists
    (plan : SettingPlan)
    (s : Session σ) :
    s.SameLists (s.performSetting engine plan).2 := by
  cases plan with
  | set settings => exact ⟨rfl, rfl, rfl⟩
  | limits memory map => exact ⟨rfl, rfl, rfl⟩
  | pattern path install =>
      exact performSetting_pattern_kept s.SameLists (auxiliaryImage_sameLists engine path s)
        fun _ _ same => same.trans ⟨rfl, rfl, rfl⟩

theorem applySetting_sameLists
    (option : String)
    (first? : Option String)
    (s : Session σ) :
    s.SameLists (s.applySetting engine option first?).2 := by
  unfold applySetting
  extract_lets inv
  split
  · exact .refl s
  · refine .trans ?_ (settle_sameLists inv _)
    split
    · exact performSetting_sameLists engine _ s
    · exact .refl s

/-! ## Passes over the images -/

/-- A place that was opened is closed by a product, and nothing else matters. -/
theorem Sound.place
    (sound : s.Sound)
    {h : Handle}
    (opened : SameLists { s with images := (s.images.take h).2 } s')
    (product : Product) :
    (s'.place h product).Sound := by
  have whole := place_whole sound.images opened.images product
  have scopes : s'.scopes = s.scopes := opened.scopes
  have saved : s'.saved = s.saved := opened.saved
  cases product <;>
    exact ⟨whole, scopes ▸ sound.scopes, scopes ▸ sound.scopes_bounded,
      saved ▸ sound.saved_bounded⟩

theorem Sound.visit
    (operator : ImageOperator)
    (inv : Invocation)
    (h : Handle)
    (image : Image)
    (sound : s.Sound) :
    ((s.visit engine operator inv h image).closed inv h).Sound := by
  obtain ⟨settings, printed, world, reported⟩ :=
    visit_reported_frame engine operator inv h image s
  refine sound.place ?_ _
  rw [reported]
  exact ⟨rfl, rfl, rfl⟩

theorem Sound.passOver
    (operator : ImageOperator)
    (inv : Invocation)
    (handles : List Handle)
    (sound : s.Sound) :
    (s.passOver engine operator inv handles).2.Sound :=
  passOver_kept Sound (fun _ h image sound => sound.visit engine operator inv h image) sound handles

theorem Sound.applyToImages
    (option : String)
    (first? second? : Option String)
    (sound : s.Sound) :
    (s.applyToImages engine option first? second?).2.Sound := by
  unfold Session.applyToImages
  extract_lets inv
  split
  · exact sound
  · split
    · exact sound.sameLists (settle_sameLists inv (.error .noImages, s))
    · exact sound.passOver engine _ inv _

theorem Sound.remapOver
    (reference : Image)
    (dither : Bool)
    (handles : List Handle)
    (sound : s.Sound) :
    (s.remapOver engine reference dither handles).2.Sound := by
  refine remapOver_kept Sound (fun t h image product sound => ?_) sound handles
  have worked : SameLists { t with images := (t.images.take h).2 }
      (performOnImage engine image (.apply (.remap reference dither) id)
        { t with images := (t.images.take h).2 }).2 := ⟨rfl, rfl, rfl⟩
  exact sound.place worked product

/-! ## Calls on the list -/

theorem Sound.assemble
    (operands : List Image)
    (op : Assembly)
    (sound : s.Sound) :
    (s.assemble engine operands op).2.Sound := by
  unfold Session.assemble
  split
  · next images world assembled =>
    have made := sound.withImages (.replaceAll s.images images)
    exact made.sameLists ⟨rfl, rfl, rfl⟩
  · exact sound.sameLists ⟨rfl, rfl, rfl⟩

theorem Sound.assembleAll
    (op : Assembly)
    (sound : s.Sound) :
    (s.assembleAll engine op).2.Sound :=
  Sound.assemble engine _ op (sound.withImages (.ofList _))

theorem Sound.writeImages
    (request : WriteRequest)
    (rename : Bool)
    (sound : s.Sound) :
    (s.writeImages engine request rename).2.Sound := by
  unfold Session.writeImages
  extract_lets path
  split
  next evicted cache =>
  split
  · exact sound.sameLists ⟨rfl, rfl, rfl⟩
  · have renamed := sound.withImages
      (sound.images.updateAll fun _ image => { image with filename := path })
    cases rename with
    | true => exact renamed.sameLists ⟨rfl, rfl, rfl⟩
    | false => exact sound.sameLists ⟨rfl, rfl, rfl⟩

theorem Sound.performOnList
    {plan : ListPlan}
    (keeps : plan.KeepsWhole)
    (sound : s.Sound) :
    (s.performOnList engine plan).2.Sound := by
  cases plan with
  | assemble op => exact sound.assembleAll engine op
  | assembleFrom operands op => exact sound.assemble engine operands op
  | rearrange images => exact sound.withImages keeps
  | refuse images fault => exact sound.withImages keeps
  | remap path dither =>
      exact performOnList_remap_kept Sound
        (sound.sameLists (auxiliaryImage_sameLists engine path s))
        fun reference _ sound => sound.remapOver engine reference dither _
  | limit resource limit => exact sound.sameLists ⟨rfl, rfl, rfl⟩
  | print text => exact sound.sameLists ⟨rfl, rfl, rfl⟩
  | write request rename => exact sound.writeImages engine request rename

theorem Sound.applyToList
    (option : String)
    (first? second? : Option String)
    (sound : s.Sound) :
    (s.applyToList engine option first? second?).2.Sound := by
  unfold Session.applyToList
  extract_lets inv
  split
  · exact sound
  · next operator named =>
    split
    · exact sound.sameLists (settle_sameLists inv (.error .noImages, s))
    · have synced : s.syncAll.Sound := sound.withImages (sound.images.updateAll _)
      refine Sound.sameLists ?_ (settle_sameLists inv _)
      split
      · next plan decided =>
        have keeps := ListOperator.named?_plansWhole _ inv named synced.images plan decided
        exact synced.performOnList engine keeps
      · exact synced

/-! ## Brackets -/

theorem Sound.saveSettings
    (saved : s.saveSettings = .ok s')
    (sound : s.Sound) :
    s'.Sound := by
  unfold Session.saveSettings at saved
  split at saved
  · next frames pushed =>
    obtain rfl := Except.ok.inj saved
    exact ⟨sound.images, sound.scopes, sound.scopes_bounded, sound.saved_bounded.push pushed⟩
  · cases saved

theorem Sound.restoreSettings
    (restored : s.restoreSettings = .ok s')
    (sound : s.Sound) :
    s'.Sound := by
  unfold Session.restoreSettings at restored
  split at restored
  · next image frames popped =>
    obtain rfl := Except.ok.inj restored
    exact ⟨sound.images, sound.scopes, sound.scopes_bounded, sound.saved_bounded.pop popped⟩
  · cases restored

/-- The list that options act on moves onto the stack, and an empty one takes its place. -/
theorem Sound.openScope
    (opened : s.openScope = .ok s')
    (sound : s.Sound) :
    s'.Sound := by
  unfold Session.openScope at opened
  extract_lets coupled at opened
  split at opened
  · cases opened
  · split at opened
    · cases opened
    · next scopes pushed =>
      have inside : Sound { s with scopes, images := {} } := by
        refine ⟨.empty, ?_, sound.scopes_bounded.push pushed, sound.saved_bounded⟩
        obtain ⟨-, rfl⟩ := Nesting.push_eq_ok_iff.mp pushed
        exact List.forall_mem_cons.mpr ⟨sound.images, sound.scopes⟩
      dsimp only at opened
      split at opened
      · exact inside.saveSettings opened
      · obtain rfl := Except.ok.inj opened
        exact inside

/-- The list put aside last comes back, with the images made inside at its end. -/
theorem Sound.closeScope
    (closed : s.closeScope = .ok s')
    (sound : s.Sound) :
    s'.Sound := by
  unfold Session.closeScope at closed
  split at closed
  · cases closed
  · next outer scopes popped =>
    have frames := (Nesting.pop_eq_ok_iff.mp popped).1
    have all := sound.scopes
    rw [frames, List.forall_mem_cons] at all
    have outside : Sound { s with scopes, images := outer.append s.images } :=
      ⟨all.1.append _, all.2, sound.scopes_bounded.pop popped, sound.saved_bounded⟩
    dsimp only at closed
    split at closed
    · split at closed
      · exact outside.restoreSettings closed
      · obtain rfl := Except.ok.inj closed
        exact outside
    · obtain rfl := Except.ok.inj closed
      exact outside

/-! ## Special options -/

/-- What an option leaves that reads, clones or lists: images that were read or copied are at the
end of the list, and of all else only the world and what is printed may differ. -/
inductive Extended (engine : Engine σ) (s : Session σ) : Session σ → Prop
  | unchanged : Extended engine s s
  | printed (text : String) : Extended engine s (s.print text)
  | refused (request : ReadRequest) :
      Extended engine s { s with world := (engine.read request s.world).2 }
  | read {request : ReadRequest} {images : List Image}
      (answer : (engine.read request s.world).1 = .ok images) :
      Extended engine s
        { s with
          world := (engine.read request s.world).2
          images := s.images.extend images }
  | cloned {outer : Reel Image} {positions : List Nat} {copies : List Image}
      (frame : outer ∈ s.scopes.frames)
      (copied : outer.copies? positions = some copies) :
      Extended engine s { s with images := s.images.extend copies }

theorem ofStep_plans
    {property : Session σ → Prop}
    {act : Invocation → Session σ → Except Fault (Session σ)}
    {inv : Invocation}
    (planned : Plans property (act inv s))
    (unchanged : property s) :
    property ((SpecialOption.ofStep act).act engine inv s).2 := by
  unfold SpecialOption.ofStep
  dsimp only
  split
  · next s' acted => exact planned s' acted
  · exact unchanged

theorem read_extended
    (inv : Invocation)
    (s : Session σ) :
    s.Extended engine (SpecialOption.read.act engine inv s).2 := by
  unfold SpecialOption.read
  dsimp only
  split
  · exact .unchanged
  · next source given =>
    let request := s.readRequest source s.settings.image.ping
    have asked : s.readImages engine source =
        ((engine.read request s.world).1.mapError (EngineFault.toReadFault source),
          { s with world := (engine.read request s.world).2 }) := rfl
    rw [asked]
    cases answer : (engine.read request s.world).1 with
    | error refusal => exact .refused request
    | ok images => exact .read answer

theorem cloneScenes_extended
    (scenes : String)
    (s : Session σ) :
    Plans (s.Extended engine) (s.cloneScenes scenes) := by
  refine .ite (.error _) ?_
  split
  · exact .error _
  · next outer top =>
    split
    · next copies parsed =>
      have frame : outer ∈ s.scopes.frames :=
        List.mem_of_mem_head? (Option.filter_eq_some_iff.mp top).1
      obtain ⟨positions, -, copied⟩ := Option.bind_eq_some_iff.mp parsed
      exact .ok (.cloned frame copied)
    · exact .error _

theorem clone_extended
    (inv : Invocation)
    (s : Session σ) :
    s.Extended engine (SpecialOption.clone.act engine inv s).2 :=
  have each (scenes : String) := cloneScenes_extended engine scenes s
  ofStep_plans engine (.ite (.bind each) (.bind each)) .unchanged

theorem list_extended
    (inv : Invocation)
    (s : Session σ) :
    s.Extended engine (SpecialOption.list.act engine inv s).2 := by
  unfold SpecialOption.list
  dsimp only
  split
  · exact .printed _
  · exact .unchanged

/-- Images at the end of a list that is whole leave it whole. -/
theorem Sound.extended
    (sound : s.Sound)
    (extended : s.Extended engine s') :
    s'.Sound := by
  cases extended with
  | unchanged => exact sound
  | printed text => exact sound.sameLists ⟨rfl, rfl, rfl⟩
  | refused request => exact sound.sameLists ⟨rfl, rfl, rfl⟩
  | read answer => exact (sound.withImages (sound.images.extend _)).sameLists ⟨rfl, rfl, rfl⟩
  | cloned frame copied => exact sound.withImages (sound.images.extend _)

theorem Sound.special
    {name : String}
    {special : SpecialOption σ}
    (named : SpecialOption.named? name = some special)
    (inv : Invocation)
    (sound : s.Sound) :
    (special.act engine inv s).2.Sound := by
  unfold SpecialOption.named? at named
  split at named
  all_goals cases named
  · exact ofStep_plans engine (fun _ opened => sound.openScope opened) sound
  · exact ofStep_plans engine (fun _ closed => sound.closeScope closed) sound
  · exact ofStep_plans engine (fun _ saved => sound.saveSettings saved) sound
  · exact ofStep_plans engine (fun _ restored => sound.restoreSettings restored) sound
  · exact sound.extended engine (read_extended engine inv s)
  · exact sound.extended engine (read_extended engine inv s)
  · exact sound.extended engine (clone_extended engine inv s)
  · exact sound.extended engine (list_extended engine inv s)
  all_goals exact sound

theorem Sound.applySpecial
    (option : String)
    (first? : Option String)
    (sound : s.Sound) :
    (s.applySpecial engine option first?).2.Sound := by
  unfold Session.applySpecial
  extract_lets inv
  split
  · exact sound
  · next special named =>
    exact (sound.special engine named inv).sameLists (settle_sameLists inv _)

/-! ## Command lines -/

theorem Sound.applySetting
    (option : String)
    (first? : Option String)
    (sound : s.Sound) :
    (s.applySetting engine option first?).2.Sound :=
  sound.sameLists (applySetting_sameLists engine option first? s)

theorem Sound.apply
    (kind : OptionKind)
    (option : String)
    (first? second? : Option String)
    (sound : s.Sound) :
    (s.apply engine kind option first? second?).2.Sound := by
  cases kind with
  | special => exact sound.applySpecial engine option first?
  | setting => exact sound.applySetting engine option first?
  | image => exact sound.applyToImages engine option first? second?
  | list => exact sound.applyToList engine option first? second?
  | settingAndImage =>
      have set := sound.applySetting engine option first?
      rw [Session.apply]
      split
      · next fatal after stopped =>
        rw [stopped] at set
        exact set
      · next after done =>
        rw [done] at set
        split
        · exact set
        · exact set.applyToImages engine option first? second?

theorem Sound.perform
    (step : CommandStep)
    (sound : s.Sound) :
    (s.perform engine step).2.Sound := by
  cases step with
  | read source => exact sound.applySpecial engine "read" (some source)
  | apply entry option arguments => exact sound.apply engine entry.kind option _ _
  | unknown option => exact sound.sameLists ⟨rfl, rfl, rfl⟩
  | incomplete option => exact sound.sameLists ⟨rfl, rfl, rfl⟩

theorem Sound.performAll
    (steps : List CommandStep)
    (sound : s.Sound) :
    (s.performAll engine steps).2.Sound := by
  induction steps generalizing s with
  | nil => exact sound
  | cons step rest inductionHypothesis =>
      have performed := sound.perform engine step
      rw [Session.performAll]
      split
      · next fatal after stopped =>
        rw [stopped] at performed
        exact performed
      · next after done =>
        rw [done] at performed
        exact inductionHypothesis
          (performed.sameLists (catchIncidents_sameLists after false))

theorem Sound.finish
    (sound : s.Sound) :
    s.finish.Sound := by
  unfold Session.finish
  split
  · exact sound
  · have reported : (s.report .unbalanced endOfArguments).Sound :=
      sound.sameLists ⟨rfl, rfl, rfl⟩
    exact reported.sameLists (catchIncidents_sameLists _ false)

theorem Sound.run
    (tokens : List String)
    (sound : s.Sound) :
    (s.run engine tokens).2.Sound := by
  have performed := sound.performAll engine (CommandStep.parse tokens)
  unfold Session.run
  split
  · next fatal after stopped =>
    rw [stopped] at performed
    exact performed
  · next after done =>
    rw [done] at performed
    exact performed.finish

/-! ## Reachable sessions -/

/-- A call on a session, with any option and any arguments. -/
inductive Call where
  | setting (option : String) (first? : Option String)
  | image (option : String) (first? second? : Option String)
  | list (option : String) (first? second? : Option String)
  | special (option : String) (first? : Option String)
  | run (tokens : List String)

/-- The end of a call and the session after it. -/
def call (s : Session σ) : Call → Option Fatal × Session σ
  | .setting option first? => s.applySetting engine option first?
  | .image option first? second? => s.applyToImages engine option first? second?
  | .list option first? second? => s.applyToList engine option first? second?
  | .special option first? => s.applySpecial engine option first?
  | .run tokens => s.run engine tokens

/-- The session after some calls, which go on after a fatal fault. -/
def callAll (calls : List Call) (s : Session σ) : Session σ :=
  calls.foldl (fun s c => (s.call engine c).2) s

theorem Sound.call
    (c : Call)
    (sound : s.Sound) :
    (s.call engine c).2.Sound := by
  cases c with
  | setting option first? => exact sound.applySetting engine option first?
  | image option first? second? => exact sound.applyToImages engine option first? second?
  | list option first? second? => exact sound.applyToList engine option first? second?
  | special option first? => exact sound.applySpecial engine option first?
  | run tokens => exact sound.run engine tokens

theorem Sound.callAll
    (calls : List Call)
    (sound : s.Sound) :
    (s.callAll engine calls).Sound := by
  induction calls generalizing s with
  | nil => exact sound
  | cons c rest inductionHypothesis => exact inductionHypothesis (sound.call engine c)

/-- After any calls on a fresh session, every list is well-formed and has an item at each place,
and brackets are nested at most 32 deep. -/
theorem lists_whole_and_brackets_bounded
    (calls : List Call)
    (world : σ) :
    let s := callAll engine calls { world }
    (∀ list ∈ s.images :: s.scopes.frames,
        list.WellFormed ∧ list.toList.length = list.length) ∧
      s.scopes.depth ≤ 32 ∧ s.saved.depth ≤ 32 := by
  intro s
  have sound : s.Sound := (Sound.initial world).callAll engine calls
  refine ⟨?_, ?_, ?_⟩
  · intro list mem
    have whole : list.Whole := by
      rcases List.mem_cons.mp mem with rfl | outer
      · exact sound.images
      · exact sound.scopes list outer
    exact ⟨whole.wellFormed, whole.wellFormed.whole_iff.mp whole⟩
  · exact sound.scopes_bounded.depth_le_standard
  · exact sound.saved_bounded.depth_le_standard

end Session
end Darkroom
