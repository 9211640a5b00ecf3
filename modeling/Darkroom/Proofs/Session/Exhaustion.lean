import Darkroom.Proofs.Operators.Survival
import Darkroom.Proofs.Session.Recast

/-!
# What the engine says ends a call

Every answer of an engine is noted down: that it met the request, or why it refused.  An option
ends its caller's run if and only if a resource ran out, and then that was the last answer.  Each
action that asks the engine is followed from the answers it heard to the fault it came to.
-/

namespace Darkroom

/-- A world with the answers given in it: nothing for a request that was met, or the refusal. -/
structure Answered (σ : Type) where
  /-- The world. -/
  world : σ
  /-- The answers, in order. -/
  answers : List (Option EngineFault)

/-- The refusal in an answer. -/
def refusal? {α : Type} : Except EngineFault α → Option EngineFault
  | .ok _ => none
  | .error refusal => some refusal

namespace Engine

variable {σ α : Type}

/-- A request is met or refused, and the answer is noted. -/
def noteAnswer (meet : σ → Except EngineFault α × σ) (w : Answered σ) :
    Except EngineFault α × Answered σ :=
  let (result, world) := meet w.world
  (result, ⟨world, w.answers ++ [refusal? result]⟩)

/-- An engine of which every answer is noted. -/
def noting (engine : Engine σ) : Engine (Answered σ) where
  read request := noteAnswer (engine.read request)
  write images request := noteAnswer (engine.write images request)
  transform image op := noteAnswer (engine.transform image op)
  assemble images op := noteAnswer (engine.assemble images op)
  readText w := engine.readText w.world
  readBytes w := engine.readBytes w.world
  formats := engine.formats
  fonts := engine.fonts

section

variable (engine : Engine σ) (w : Answered σ)

theorem noting_read (request : ReadRequest) :
    engine.noting.read request w = noteAnswer (engine.read request) w := rfl

theorem noting_write (images : List Image) (request : WriteRequest) :
    engine.noting.write images request w = noteAnswer (engine.write images request) w := rfl

theorem noting_transform (image : Image) (op : Transform) :
    engine.noting.transform image op w = noteAnswer (engine.transform image op) w := rfl

theorem noting_assemble (images : List Image) (op : Assembly) :
    engine.noting.assemble images op w = noteAnswer (engine.assemble images op) w := rfl

end

/-- A request is met or refused, and what is noted says which. -/
theorem noteAnswer_cases
    (meet : σ → Except EngineFault α × σ)
    (w : Answered σ) :
    (∃ refusal world,
        noteAnswer meet w = (.error refusal, ⟨world, w.answers ++ [some refusal]⟩)) ∨
      ∃ a world, noteAnswer meet w = (.ok a, ⟨world, w.answers ++ [none]⟩) := by
  unfold noteAnswer
  rcases meet w.world with ⟨refusal | a, world⟩
  · exact .inl ⟨refusal, world, rfl⟩
  · exact .inr ⟨a, world, rfl⟩

/-- Notes change nothing. -/
theorem noting_lifts (engine : Engine σ) : Lifts Answered.world engine.noting engine where
  read _ _ := rfl
  write _ _ _ := rfl
  transform _ _ _ := rfl
  assemble _ _ _ := rfl
  readText _ := rfl
  readBytes _ := rfl
  formats := rfl
  fonts := rfl

end Engine

/-! ## Answers -/

/-- What was heard before an end: nothing ran out, or the last answer was that a resource did, no
other answer was, and it is the fault of the end. -/
def Hears (answers : List (Option EngineFault)) : Option Fault → Prop
  | none => ∀ what, some (.exhausted what) ∉ answers
  | some fault => ∃ what earlier, fault = .exhausted what ∧
      answers = earlier ++ [some (.exhausted what)] ∧ ∀ other, some (.exhausted other) ∉ earlier

namespace Hears

variable {first second : List (Option EngineFault)} {fault? : Option Fault}

@[simp] theorem nil : Hears [] none := by
  simp [Hears]

theorem append
    (nothing : Hears first none)
    (heard : Hears second fault?) :
    Hears (first ++ second) fault? := by
  cases fault? with
  | none => exact fun what mem => (List.mem_append.mp mem).elim (nothing what) (heard what)
  | some fault =>
      obtain ⟨what, earlier, rfl, rfl, others⟩ := heard
      refine ⟨what, first ++ earlier, rfl, by simp, fun other mem => ?_⟩
      exact (List.mem_append.mp mem).elim (nothing other) (others other)

theorem isSome_iff
    (heard : Hears first fault?) :
    fault?.isSome ↔ ∃ what, some (.exhausted what) ∈ first := by
  cases fault? with
  | none =>
      have nothing : ∀ what, some (.exhausted what) ∉ first := heard
      simpa using nothing
  | some fault =>
      obtain ⟨what, earlier, rfl, rfl, others⟩ := heard
      simp

end Hears

/-- The fault that an outcome ends a run with. -/
def fatalFault? {α : Type} : Except Fault α → Option Fault
  | .ok _ => none
  | .error fault => if fault.isFatal then some fault else none

theorem Survives.fatalFault?_eq
    {α : Type}
    {decision : Except Fault α}
    (survives : Survives decision) :
    fatalFault? decision = none := by
  cases decision with
  | ok a => rfl
  | error fault => simp [fatalFault?, survives fault rfl]

/-- A wording of refusals as faults, in which what ran out stays what ran out. -/
structure Translates (toFault : EngineFault → Fault) : Prop where
  /-- What ran out stays what ran out. -/
  exhausted : ∀ what, toFault (.exhausted what) = .exhausted what
  /-- No other refusal ends a run. -/
  others : ∀ refusal, (∀ what, refusal ≠ .exhausted what) → (toFault refusal).isFatal = false

/-- What ran out is said to have run out, and any other refusal is worded as a fault. -/
def EngineFault.wordedAs (other : String → Fault) : EngineFault → Fault
  | exhausted what => .exhausted what
  | refusal => other refusal.message

theorem EngineFault.wordedAs_translates
    {other : String → Fault}
    (mild : ∀ message, (other message).isFatal = false) :
    Translates (wordedAs other) where
  exhausted _ := rfl
  others refusal notExhausted := by
    cases refusal with
    | exhausted what => exact absurd rfl (notExhausted what)
    | _ => exact mild _

theorem EngineFault.toFault_translates : Translates toFault := by
  have worded : toFault = wordedAs .engine := by
    funext refusal
    cases refusal <;> rfl
  exact worded ▸ wordedAs_translates fun _ => rfl

theorem EngineFault.toReadFault_translates (path : String) : Translates (toReadFault path) := by
  have worded : toReadFault path = wordedAs (.unreadable path) := by
    funext refusal
    cases refusal <;> rfl
  exact worded ▸ wordedAs_translates fun _ => rfl

theorem EngineFault.toWriteFault_translates (path : String) : Translates (toWriteFault path) := by
  have worded : toWriteFault path = wordedAs (.unwritable path) := by
    funext refusal
    cases refusal <;> rfl
  exact worded ▸ wordedAs_translates fun _ => rfl

/-- A request that was met. -/
theorem Hears.met : Hears [none] none := by
  simp [Hears]

/-- A request that was refused. -/
theorem Translates.hears
    {α : Type}
    {toFault : EngineFault → Fault}
    (translates : Translates toFault)
    (refusal : EngineFault) :
    Hears [some refusal] (fatalFault? (.error (toFault refusal) : Except Fault α)) := by
  by_cases ranOut : ∃ what, refusal = .exhausted what
  · obtain ⟨what, rfl⟩ := ranOut
    rw [translates.exhausted]
    exact ⟨what, [], rfl, rfl, by simp⟩
  · have other := not_exists.mp ranOut
    simp only [fatalFault?, translates.others refusal other, Bool.false_eq_true, ↓reduceIte]
    simpa [Hears, eq_comm] using other

namespace Session

variable {σ α β : Type}

/-- The answers that came while something was done go with its outcome. -/
def Heard (s : Session (Answered σ)) (acted : Acted (Answered σ) α) : Prop :=
  ∃ answers, acted.2.world.answers = s.world.answers ++ answers ∧
    Hears answers (fatalFault? acted.1)

namespace Heard

variable {s after : Session (Answered σ)} {acted : Acted (Answered σ) α}

/-- Nothing was asked, and nothing fatal came out. -/
theorem quiet
    {outcome : Except Fault α}
    (survives : Survives outcome)
    (world : after.world = s.world) :
    s.Heard (outcome, after) := by
  refine ⟨[], ?_, ?_⟩
  · rw [world, List.append_nil]
  · rw [survives.fatalFault?_eq]
    exact .nil

/-- A request was met, and nothing fatal came out. -/
theorem met
    {outcome : Except Fault α}
    (survives : Survives outcome)
    (world : after.world.answers = s.world.answers ++ [none]) :
    s.Heard (outcome, after) := by
  refine ⟨[none], world, ?_⟩
  rw [survives.fatalFault?_eq]
  exact .met

/-- A request was refused, and the refusal came out as a fault. -/
theorem refused
    {toFault : EngineFault → Fault}
    (translates : Translates toFault)
    {refusal : EngineFault}
    (world : after.world.answers = s.world.answers ++ [some refusal]) :
    s.Heard ((.error (toFault refusal) : Except Fault α), after) :=
  ⟨[some refusal], world, translates.hears refusal⟩

/-- What is done after something that did not end the run. -/
theorem andThen
    {outcome : Except Fault β}
    (first : s.Heard (outcome, after))
    (survives : Survives outcome)
    (second : after.Heard acted) :
    s.Heard acted := by
  obtain ⟨answers, world, heard⟩ := first
  obtain ⟨answers', world', heard'⟩ := second
  rw [survives.fatalFault?_eq] at heard
  refine ⟨answers ++ answers', ?_, heard.append heard'⟩
  rw [world', world, List.append_assoc]

end Heard

variable (engine : Engine σ)

/-! ## Settings -/

theorem auxiliaryImage_heard
    (path : String)
    (s : Session (Answered σ)) :
    s.Heard (s.auxiliaryImage engine.noting path) := by
  rw [auxiliaryImage, engine.noting_read]
  cases s.cache.get? path with
  | some image => exact .quiet (.ok _) rfl
  | none =>
      rcases Engine.noteAnswer_cases (engine.read (s.readRequest path false)) s.world with
        ⟨refusal, world, refused⟩ | ⟨frames, world, met⟩
      · rw [refused]
        exact .refused (EngineFault.toReadFault_translates path) rfl
      · rw [met]
        cases frames with
        | nil => exact .met (.error rfl) rfl
        | cons frame frames => exact .met (.ok _) rfl

theorem performSetting_heard
    (plan : SettingPlan)
    (s : Session (Answered σ)) :
    s.Heard (s.performSetting engine.noting plan) := by
  cases plan with
  | set settings => exact .quiet (.ok _) rfl
  | limits memory map => exact .quiet (.ok _) rfl
  | pattern path install =>
      have read := auxiliaryImage_heard engine path s
      rw [performSetting]
      rcases found : s.auxiliaryImage engine.noting path with ⟨_ | image, after⟩ <;>
        rw [found] at read
      · exact read
      · exact read

theorem actOnSetting_heard
    {name : String}
    {setting : SettingOption}
    (named : SettingOption.named? name = some setting)
    (inv : Invocation)
    (s : Session (Answered σ)) :
    s.Heard (s.actOnSetting engine.noting setting inv) := by
  have survives := SettingOption.named?_survives s.settings inv named
  rw [actOnSetting]
  cases decided : setting s.settings inv with
  | error fault => exact .quiet (.error (survives fault decided)) rfl
  | ok plan => exact performSetting_heard engine plan s

/-! ## Operators on one image -/

theorem performOnImage_heard
    (image : Image)
    (plan : ImagePlan)
    (s : Session (Answered σ)) :
    s.Heard (s.performOnImage engine.noting image plan) := by
  cases plan with
  | keep image => exact .quiet (.ok _) rfl
  | setOption key value? image => exact .quiet (.ok _) rfl
  | print text => exact .quiet (.ok _) rfl
  | apply op finish =>
      rw [performOnImage, engine.noting_transform]
      rcases Engine.noteAnswer_cases (engine.transform image op) s.world with
        ⟨refusal, world, refused⟩ | ⟨outcome, world, met⟩
      · rw [refused]
        exact .refused EngineFault.toFault_translates rfl
      · rw [met]
        exact .met (.ok _) rfl

theorem actOnImage_heard
    {name : String}
    {operator : ImageOperator}
    (named : ImageOperator.named? name = some operator)
    (inv : Invocation)
    (image : Image)
    (s : Session (Answered σ)) :
    s.Heard (s.actOnImage engine.noting operator inv image) := by
  have survives := ImageOperator.named?_survives (s.view engine.noting) image inv named
  rw [actOnImage]
  cases decided : operator (s.view engine.noting) image inv with
  | error fault => exact .quiet (.error (survives fault decided)) rfl
  | ok plan => exact performOnImage_heard engine image plan s

/-! ## Operators on the list -/

theorem remapOver_heard
    (reference : Image)
    (dither : Bool)
    (handles : List Handle)
    (s : Session (Answered σ)) :
    s.Heard (s.remapOver engine.noting reference dither handles) := by
  induction handles generalizing s with
  | nil => exact .quiet (.ok _) rfl
  | cons h rest inductionHypothesis =>
      rw [remapOver]
      rcases s.images.take h with ⟨_ | image, images⟩
      · exact inductionHypothesis s
      · have mapped := performOnImage_heard engine image (.apply (.remap reference dither) id)
          { s with images }
        dsimp only
        rcases acted : performOnImage engine.noting image (.apply (.remap reference dither) id)
          { s with images } with ⟨fault | product, after⟩ <;> rw [acted] at mapped
        · exact mapped
        · have later := inductionHypothesis (after.place h product)
          cases product <;> exact .andThen mapped (.ok _) later

theorem assemble_heard
    (operands : List Image)
    (op : Assembly)
    (s : Session (Answered σ)) :
    s.Heard (s.assemble engine.noting operands op) := by
  rw [assemble, engine.noting_assemble]
  rcases Engine.noteAnswer_cases (engine.assemble operands op) s.world with
    ⟨refusal, world, refused⟩ | ⟨images, world, met⟩
  · rw [refused]
    exact .refused EngineFault.toFault_translates rfl
  · rw [met]
    exact .met (.ok _) rfl

theorem writeImages_heard
    (request : WriteRequest)
    (rename : Bool)
    (s : Session (Answered σ)) :
    s.Heard (s.writeImages engine.noting request rename) := by
  rw [writeImages, engine.noting_write]
  rcases Engine.noteAnswer_cases (engine.write s.images.toList request) s.world with
    ⟨refusal, world, refused⟩ | ⟨done, world, met⟩
  · rw [refused]
    exact .refused (EngineFault.toWriteFault_translates _) rfl
  · rw [met]
    cases rename <;> exact .met (.ok _) rfl

theorem performOnList_heard
    {plan : ListPlan}
    (survives : plan.Survives)
    (s : Session (Answered σ)) :
    s.Heard (s.performOnList engine.noting plan) := by
  cases plan with
  | assemble op =>
      exact assemble_heard engine s.images.intoList op
        { s with images := .ofList s.images.intoList }
  | assembleFrom operands op => exact assemble_heard engine operands op s
  | rearrange images => exact .quiet (.ok _) rfl
  | refuse images fault => exact .quiet (.error survives) rfl
  | remap path dither =>
      have read := auxiliaryImage_heard engine path s
      rw [performOnList]
      rcases found : s.auxiliaryImage engine.noting path with ⟨_ | reference, after⟩ <;>
        rw [found] at read
      · exact read
      · exact .andThen read (.ok _) (remapOver_heard engine reference dither _ after)
  | limit resource limit => exact .quiet (.ok _) rfl
  | print text => exact .quiet (.ok _) rfl
  | write request rename => exact writeImages_heard engine request rename s

theorem actOnList_heard
    {name : String}
    {operator : ListOperator}
    (named : ListOperator.named? name = some operator)
    (inv : Invocation)
    (s : Session (Answered σ)) :
    s.Heard (s.actOnList engine.noting operator inv) := by
  have survives := ListOperator.named?_survives (s.syncAll.view engine.noting) s.syncAll.images
    inv named
  rw [actOnList]
  split
  · exact .quiet (.error rfl) rfl
  · cases decided : operator (s.syncAll.view engine.noting) s.syncAll.images inv with
    | error fault => exact .quiet (.error (survives.decided fault decided)) rfl
    | ok plan => exact performOnList_heard engine (survives.planned plan decided) s.syncAll

/-! ## Options of the session as a whole -/

/-- A step that asks nothing and does not end a run. -/
structure Quiet (s : Session σ) (step : Except Fault (Session σ)) : Prop where
  /-- A fault that comes out is not fatal. -/
  survives : Survives step
  /-- The world stays. -/
  world : ∀ after, step = .ok after → after.world = s.world

namespace Quiet

variable {s after : Session σ}

theorem ok (world : after.world = s.world) : s.Quiet (.ok after) where
  survives := .ok after
  world := by
    rintro _ ⟨⟩
    exact world

theorem error {fault : Fault} (mild : fault.isFatal = false) : s.Quiet (.error fault) where
  survives := .error mild
  world := by
    rintro _ ⟨⟩

end Quiet

theorem saveSettings_quiet (s : Session σ) : s.Quiet s.saveSettings := by
  unfold saveSettings
  split
  · exact .ok rfl
  · exact .error rfl

theorem restoreSettings_quiet (s : Session σ) : s.Quiet s.restoreSettings := by
  unfold restoreSettings
  split
  · exact .ok rfl
  · exact .error rfl

theorem openScope_quiet (s : Session σ) : s.Quiet s.openScope := by
  unfold openScope
  extract_lets coupled
  split
  · exact .error rfl
  · split
    · exact .error rfl
    · next scopes pushed =>
      dsimp only
      split
      · obtain ⟨survives, world⟩ := saveSettings_quiet { s with scopes, images := {} }
        exact ⟨survives, world⟩
      · exact .ok rfl

theorem closeScope_quiet (s : Session σ) : s.Quiet s.closeScope := by
  unfold closeScope
  split
  · exact .error rfl
  · next outer scopes popped =>
    dsimp only
    split
    · split
      · obtain ⟨survives, world⟩ :=
          restoreSettings_quiet { s with scopes, images := outer.append s.images }
        exact ⟨survives, world⟩
      · exact .ok rfl
    · exact .ok rfl

theorem cloneScenes_quiet (scenes : String) (s : Session σ) : s.Quiet (s.cloneScenes scenes) := by
  unfold cloneScenes
  split
  · exact .error rfl
  · split
    · exact .error rfl
    · split
      · exact .ok rfl
      · exact .error rfl

theorem ofStep_heard
    {act : Invocation → Session (Answered σ) → Except Fault (Session (Answered σ))}
    {inv : Invocation}
    {s : Session (Answered σ)}
    (quiet : s.Quiet (act inv s)) :
    s.Heard ((SpecialOption.ofStep act).act engine.noting inv s) := by
  dsimp only [SpecialOption.ofStep]
  cases acted : act inv s with
  | error fault => exact .quiet (.error (quiet.survives fault acted)) rfl
  | ok after => exact .quiet (.ok _) (quiet.world after acted)

theorem clone_heard
    (inv : Invocation)
    (s : Session (Answered σ)) :
    s.Heard (SpecialOption.clone.act engine.noting inv s) := by
  refine ofStep_heard engine ?_
  split
  · cases given : inv.first with
    | error fault => exact .error (inv.first_survives fault given)
    | ok scenes => exact cloneScenes_quiet scenes s
  · exact cloneScenes_quiet "-1" s

theorem read_heard
    (inv : Invocation)
    (s : Session (Answered σ)) :
    s.Heard (SpecialOption.read.act engine.noting inv s) := by
  dsimp only [SpecialOption.read]
  cases given : inv.first with
  | error fault => exact .quiet (.error (inv.first_survives fault given)) rfl
  | ok source =>
      dsimp only
      rw [readImages, engine.noting_read]
      rcases Engine.noteAnswer_cases (engine.read (s.readRequest source s.settings.image.ping))
        s.world with ⟨refusal, world, refused⟩ | ⟨images, world, met⟩
      · rw [refused]
        exact .refused (EngineFault.toReadFault_translates source) rfl
      · rw [met]
        exact .met (.ok _) rfl

theorem list_heard
    (inv : Invocation)
    (s : Session (Answered σ)) :
    s.Heard (SpecialOption.list.act engine.noting inv s) := by
  have survives : Survives
      (inv.first.bind (Listing.text engine.formats engine.fonts s.limits)) :=
    .bind inv.first_survives (Listing.text_survives _ _ _)
  dsimp only [SpecialOption.list, Engine.noting]
  cases listed : inv.first.bind (Listing.text engine.formats engine.fonts s.limits) with
  | error fault => exact .quiet (.error (survives fault listed)) rfl
  | ok text => exact .quiet (.ok _) rfl

theorem special_heard
    {name : String}
    {special : SpecialOption (Answered σ)}
    (named : SpecialOption.named? name = some special)
    (inv : Invocation)
    (s : Session (Answered σ)) :
    s.Heard (special.act engine.noting inv s) := by
  unfold SpecialOption.named? at named
  split at named
  all_goals cases named
  · exact ofStep_heard engine (openScope_quiet s)
  · exact ofStep_heard engine (closeScope_quiet s)
  · exact ofStep_heard engine (saveSettings_quiet s)
  · exact ofStep_heard engine (restoreSettings_quiet s)
  · exact read_heard engine inv s
  · exact read_heard engine inv s
  · exact clone_heard engine inv s
  · exact list_heard engine inv s
  all_goals exact .quiet (.ok _) rfl

end Session
end Darkroom
