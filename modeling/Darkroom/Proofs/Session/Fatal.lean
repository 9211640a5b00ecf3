import Darkroom.Engine.Recording
import Darkroom.Proofs.Session.Exhaustion
import Darkroom.Proofs.Session.Incidents

/-!
# How calls end

A call ends its caller's run if and only if a resource ran out on the way.  The engine is asked
nothing after that, and the caller is told what ran out and under which option, which is also the
last thing in the log.  Otherwise the call goes on, and what it reports are its failed attempts.
-/

namespace Darkroom

/-- What a step is reported under: the option as written, or the one that reads. -/
def CommandStep.option : CommandStep → String
  | read _ => "read"
  | apply _ option _ => option
  | unknown option => option
  | incomplete option => option

namespace Session

variable {σ : Type}

/-- An option ends as the engine answered it. -/
structure Ends (option : String) (s : Session (Answered σ))
    (ended : Option Fatal × Session (Answered σ)) : Prop where
  /-- The option ends a run when a resource ran out, and that was the last answer. -/
  heard : ∃ answers, ended.2.world.answers = s.world.answers ++ answers ∧
    Hears answers (ended.1.map Fatal.fault)
  /-- What ran out is told under the option, in the log as well. -/
  told : ∀ fatal, ended.1 = some fatal → fatal.option = option ∧
    ended.2.log.incidents.getLast? = some ⟨.fatal, fatal.fault, option⟩

namespace Ends

variable {option : String} {s after : Session (Answered σ)}
  {ended : Option Fatal × Session (Answered σ)}

/-- Nothing ran out. -/
theorem goesOn
    (heard : ∃ answers, after.world.answers = s.world.answers ++ answers ∧ Hears answers none) :
    Ends option s (none, after) where
  heard := heard
  told := by rintro _ ⟨⟩

/-- Nothing was asked. -/
theorem nothing (world : after.world = s.world) : Ends option s (none, after) :=
  goesOn ⟨[], by rw [world, List.append_nil], .nil⟩

/-- What goes on is followed by something else. -/
theorem andThen
    (first : Ends option s (none, after))
    (second : Ends option after ended) :
    Ends option s ended where
  heard := by
    obtain ⟨answers, world, heard⟩ := first.heard
    obtain ⟨answers', world', heard'⟩ := second.heard
    refine ⟨answers ++ answers', ?_, heard.append heard'⟩
    rw [world', world, List.append_assoc]
  told := second.told

end Ends

theorem getLast?_report
    (log : IncidentLog)
    (fault : Fault)
    (option : String) :
    (log.report fault option).incidents.getLast? = some ⟨fault.severity, fault, option⟩ := by
  simp [IncidentLog.report, IncidentLog.reportAs, IncidentLog.add]

/-- The end of an invocation. -/
theorem settle_ends
    {s : Session (Answered σ)}
    {acted : Acted (Answered σ) Unit}
    (inv : Invocation)
    (heard : s.Heard acted) :
    Ends inv.option s (settle inv acted) := by
  obtain ⟨outcome, after⟩ := acted
  obtain ⟨answers, world, heard⟩ := heard
  cases outcome with
  | ok done => exact .goesOn ⟨answers, world, heard⟩
  | error fault =>
      rw [settle]
      rw [fatalFault?] at heard
      cases fatal : fault.isFatal with
      | false =>
          rw [fatal] at heard
          exact .goesOn ⟨answers, world, heard⟩
      | true =>
          rw [fatal] at heard
          refine ⟨⟨answers, world, heard⟩, ?_⟩
          rintro _ ⟨⟩
          have severity : fault.severity = .fatal := by simpa [Fault.isFatal] using fatal
          refine ⟨rfl, ?_⟩
          rw [← severity]
          exact getLast?_report after.log fault inv.option

variable (engine : Engine σ)

/-! ## Operators on one image -/

theorem Visit.closed_world
    {τ : Type}
    (v : Visit τ)
    (inv : Invocation)
    (h : Handle) :
    (v.closed inv h).world = v.after.world := by
  obtain ⟨found, before, outcome, after⟩ := v
  cases outcome with
  | error fault => rfl
  | ok product => cases product <;> rfl

/-- A visit ends as the engine answered it. -/
theorem visit_ends
    {name : String}
    {operator : ImageOperator}
    (named : ImageOperator.named? name = some operator)
    (inv : Invocation)
    (h : Handle)
    (image : Image)
    (s : Session (Answered σ)) :
    let v := s.visit engine.noting operator inv h image
    Ends inv.option s (v.fatal? inv, v.closed inv h) := by
  intro v
  have acted : Heard { s with images := (s.images.take h).2 } (v.outcome, v.after) :=
    actOnImage_heard engine named inv (s.settings.image.sync image) _
  obtain ⟨answers, world, heard⟩ := acted
  have fault : (v.fatal? inv).map Fatal.fault = fatalFault? v.outcome := by
    rw [Visit.fatal?, Visit.fault?]
    cases v.outcome with
    | ok product => rfl
    | error fault => cases fatal : fault.isFatal <;> simp [fatalFault?, fatal]
  refine ⟨⟨answers, (congrArg Answered.answers (v.closed_world inv h)).trans world, ?_⟩, ?_⟩
  · exact fault ▸ heard
  · intro fatal stopped
    obtain ⟨fault, failed, isFatal, rfl⟩ := Visit.fatal?_eq_some_iff.mp stopped
    have severity : fault.severity = .fatal := by simpa [Fault.isFatal] using isFatal
    refine ⟨rfl, ?_⟩
    dsimp only
    rw [visit_incidents, Visit.incident?, Visit.fault?, failed]
    simp [severity]

theorem passOver_ends
    {name : String}
    {operator : ImageOperator}
    (named : ImageOperator.named? name = some operator)
    (inv : Invocation)
    (handles : List Handle)
    (s : Session (Answered σ)) :
    Ends inv.option s (s.passOver engine.noting operator inv handles) := by
  induction handles generalizing s with
  | nil => exact .nothing rfl
  | cons h rest inductionHypothesis =>
      cases found : s.images.get? h with
      | none =>
          rw [passOver_of_taken found]
          exact inductionHypothesis s
      | some image =>
          have visited := visit_ends engine named inv h image s
          rw [passOver_of_found found]
          dsimp only at visited ⊢
          cases stopped : (s.visit engine.noting operator inv h image).fatal? inv with
          | some fatal =>
              rw [stopped] at visited
              exact visited
          | none =>
              rw [stopped] at visited
              exact visited.andThen (inductionHypothesis _)

/-! ## Options -/

theorem applySetting_ends
    (option : String)
    (first? : Option String)
    (s : Session (Answered σ)) :
    Ends option s (s.applySetting engine.noting option first?) := by
  rw [applySetting_eq]
  extract_lets inv
  cases named : SettingOption.named? inv.name with
  | none => exact .nothing rfl
  | some setting => exact settle_ends inv (actOnSetting_heard engine named inv s)

theorem applyToImages_ends
    (option : String)
    (first? second? : Option String)
    (s : Session (Answered σ)) :
    Ends option s (s.applyToImages engine.noting option first? second?) := by
  rw [applyToImages]
  cases named : ImageOperator.named? (Invocation.of option first? second?).name with
  | none => exact .nothing rfl
  | some operator =>
      dsimp only
      split
      · exact .nothing rfl
      · exact passOver_ends engine named (.of option first? second?) s.images.order s

theorem applyToList_ends
    (option : String)
    (first? second? : Option String)
    (s : Session (Answered σ)) :
    Ends option s (s.applyToList engine.noting option first? second?) := by
  rw [applyToList_eq]
  extract_lets inv
  cases named : ListOperator.named? inv.name with
  | none => exact .nothing rfl
  | some operator => exact settle_ends inv (actOnList_heard engine named inv s)

theorem applySpecial_ends
    (option : String)
    (first? : Option String)
    (s : Session (Answered σ)) :
    Ends option s (s.applySpecial engine.noting option first?) := by
  rw [applySpecial]
  cases named : SpecialOption.named? (Invocation.of option first? none).name with
  | none => exact .nothing rfl
  | some special => exact settle_ends (.of option first? none) (special_heard engine named _ s)

theorem apply_ends
    (kind : OptionKind)
    (option : String)
    (first? second? : Option String)
    (s : Session (Answered σ)) :
    Ends option s (s.apply engine.noting kind option first? second?) := by
  cases kind with
  | special => exact applySpecial_ends engine option first? s
  | setting => exact applySetting_ends engine option first? s
  | image => exact applyToImages_ends engine option first? second? s
  | list => exact applyToList_ends engine option first? second? s
  | settingAndImage =>
      have set := applySetting_ends engine option first? s
      rw [apply]
      rcases ended : s.applySetting engine.noting option first? with ⟨_ | fatal, after⟩ <;>
        rw [ended] at set
      · dsimp only
        split
        · exact set
        · exact set.andThen (applyToImages_ends engine option first? second? after)
      · exact set

/-! ## Command lines -/

theorem perform_ends
    (engine : Engine σ)
    (step : CommandStep)
    (s : Session (Answered σ)) :
    Ends step.option s (s.perform engine.noting step) := by
  cases step with
  | read source => exact applySpecial_ends engine "read" (some source) s
  | apply entry option arguments => exact apply_ends engine entry.kind option _ _ s
  | unknown option => exact .nothing rfl
  | incomplete option => exact .nothing rfl

@[simp] theorem catchIncidents_world (s : Session σ) (all : Bool) :
    (s.catchIncidents all).2.world = s.world := by
  unfold catchIncidents
  dsimp only
  split <;> rfl

@[simp] theorem finish_world (s : Session σ) : s.finish.world = s.world := by
  unfold finish
  split
  · rfl
  · exact catchIncidents_world _ false

/-- Steps that end a run do so with the first step that does. -/
theorem performAll_stops
    {engine : Engine σ}
    {steps : List CommandStep}
    {s after : Session σ}
    {fatal : Fatal}
    (stopped : s.performAll engine steps = (some fatal, after)) :
    ∃ earlier step later between, steps = earlier ++ step :: later ∧
      s.performAll engine earlier = (none, between) ∧
      between.perform engine step = (some fatal, after) := by
  induction steps generalizing s with
  | nil => cases stopped
  | cons step rest inductionHypothesis =>
      rw [performAll] at stopped
      rcases performed : s.perform engine step with ⟨_ | fatal', after'⟩ <;>
        rw [performed] at stopped
      · obtain ⟨earlier, step', later, between, rfl, went, stops⟩ := inductionHypothesis stopped
        refine ⟨step :: earlier, step', later, between, rfl, ?_, stops⟩
        rw [performAll, performed]
        exact went
      · obtain ⟨⟨⟩, rfl⟩ := Prod.mk.inj stopped
        exact ⟨[], step, rest, s, rfl, rfl, performed⟩

/-- What was heard during some steps goes with their end. -/
theorem performAll_heard
    (engine : Engine σ)
    (steps : List CommandStep)
    (s : Session (Answered σ)) :
    ∃ answers, (s.performAll engine.noting steps).2.world.answers =
        s.world.answers ++ answers ∧
      Hears answers ((s.performAll engine.noting steps).1.map Fatal.fault) := by
  induction steps generalizing s with
  | nil => exact ⟨[], (List.append_nil _).symm, .nil⟩
  | cons step rest inductionHypothesis =>
      obtain ⟨answers, world, heard⟩ := (perform_ends engine step s).heard
      rw [performAll]
      rcases performed : s.perform engine.noting step with ⟨_ | fatal, after⟩ <;>
        rw [performed] at world heard
      · obtain ⟨answers', world', heard'⟩ := inductionHypothesis (after.catchIncidents false).2
        refine ⟨answers ++ answers', ?_, heard.append heard'⟩
        dsimp only at world ⊢
        rw [world', catchIncidents_world, world, List.append_assoc]
      · exact ⟨answers, world, heard⟩

theorem run_heard
    (engine : Engine σ)
    (tokens : List String)
    (s : Session (Answered σ)) :
    ∃ answers, (s.run engine.noting tokens).2.world.answers = s.world.answers ++ answers ∧
      Hears answers ((s.run engine.noting tokens).1.map Fatal.fault) := by
  have heard := performAll_heard engine (CommandStep.parse tokens) s
  rw [run]
  rcases ended : s.performAll engine.noting (CommandStep.parse tokens) with ⟨_ | fatal, after⟩ <;>
    rw [ended] at heard
  · simpa using heard
  · exact heard

/-! ## Noted sessions -/

/-- The session with nothing noted yet. -/
def noting (s : Session σ) : Session (Answered σ) :=
  s.through fun world => ⟨world, []⟩

/-- A call of a noted session is the call of the session. -/
theorem noting_apply
    (engine : Engine σ)
    (kind : OptionKind)
    (option : String)
    (first? second? : Option String)
    (s : Session σ) :
    throughEnd Answered.world (s.noting.apply engine.noting kind option first? second?) =
      s.apply engine kind option first? second? :=
  (apply_through engine.noting_lifts kind option first? second? s.noting).symm

theorem noting_performAll
    (engine : Engine σ)
    (steps : List CommandStep)
    (s : Session σ) :
    throughEnd Answered.world (s.noting.performAll engine.noting steps) =
      s.performAll engine steps :=
  (performAll_through engine.noting_lifts steps s.noting).symm

theorem noting_run
    (engine : Engine σ)
    (tokens : List String)
    (s : Session σ) :
    throughEnd Answered.world (s.noting.run engine.noting tokens) = s.run engine tokens :=
  (call_through engine.noting_lifts (.run tokens) s.noting).symm

/-- A call that the engine gave some answers ends a run if and only if a resource ran out. -/
structure EndsAsAnswered (answers : List (Option EngineFault)) (option : String)
    (ended : Option Fatal × Session σ) : Prop where
  /-- The run ends when an answer was that a resource ran out. -/
  fatal_iff : ended.1.isSome ↔ ∃ what, some (.exhausted what) ∈ answers
  /-- That was the last answer and no other was like it; it is told under the option, and it is the
  last thing in the log. -/
  last : ∀ fatal, ended.1 = some fatal → ∃ what earlier,
    fatal = ⟨.exhausted what, option⟩ ∧ answers = earlier ++ [some (.exhausted what)] ∧
      (∀ other, some (.exhausted other) ∉ earlier) ∧
      ended.2.log.incidents.getLast? = some ⟨.fatal, .exhausted what, option⟩

theorem endsAsAnswered_of_hears
    {option : String}
    {noted : Option Fatal × Session (Answered σ)}
    (told : ∀ fatal, noted.1 = some fatal → fatal.option = option ∧
      noted.2.log.incidents.getLast? = some ⟨.fatal, fatal.fault, option⟩)
    (heard : Hears noted.2.world.answers (noted.1.map Fatal.fault)) :
    EndsAsAnswered noted.2.world.answers option (throughEnd Answered.world noted) where
  fatal_iff := by
    rw [← heard.isSome_iff, Option.isSome_map]
    rfl
  last := by
    intro fatal stopped
    have stopped' : noted.1 = some fatal := stopped
    obtain ⟨rfl, logged⟩ := told fatal stopped'
    rw [stopped'] at heard
    obtain ⟨what, earlier, fault, answers, others⟩ := heard
    refine ⟨what, earlier, ?_, answers, others, ?_⟩
    · rw [← fault]
    · rw [← fault]
      exact logged

/-! ## Attempts are what is run -/

section

variable (engine : Engine σ) (option : String) (first? second? : Option String) (s : Session σ)

/-- An option that is not for single images is attempted once at most. -/
theorem length_applyAttempts_le
    {kind : OptionKind}
    (other : kind.isImage = false) :
    (s.applyAttempts engine kind option first? second?).length ≤ 1 := by
  cases kind with
  | special =>
      simp only [applyAttempts, specialAttempts]
      split <;> simp
  | setting =>
      simp only [applyAttempts, settingAttempts]
      split <;> simp
  | list =>
      simp only [applyAttempts, listAttempts]
      split <;> simp
  | image => cases other
  | settingAndImage => cases other

/-- The attempts of an operator on single images: one when there is no image, and else one for each
image in the order of the list, up to the first that ends the run. -/
structure AttemptsEach (operator : ImageOperator) : Prop where
  /-- Without images there is one attempt, which fails. -/
  empty : s.images.isEmpty →
    s.imageAttempts engine option first? second? = [⟨option, some .noImages⟩]
  /-- With images, each attempt is a run of the operator on one of them. -/
  each : s.images.Whole → s.images.isEmpty = false →
    let inv := Invocation.of option first? second?
    ∃ visits : List (Visit σ),
      s.imageAttempts engine option first? second? = visits.map (fun v => .of inv v.outcome) ∧
        (∀ v ∈ visits, actOnImage engine operator inv v.given v.before = (v.outcome, v.after)) ∧
        visits.map Visit.found <+: s.images.toList ∧
        ((s.applyToImages engine option first? second?).1 = none →
          visits.map Visit.found = s.images.toList)

theorem attemptsEach
    {operator : ImageOperator}
    (named : ImageOperator.named? (Invocation.of option first? second?).name = some operator) :
    s.AttemptsEach engine option first? second? operator where
  empty noImages := by simp [imageAttempts, named, noImages]
  each whole nonempty := by
    intro inv
    have pass : s.applyToImages engine option first? second? =
        s.passOver engine operator inv s.images.order := by
      simp [applyToImages, named, nonempty, inv]
    obtain ⟨visited, verdict⟩ : Visited engine operator inv [] s.images.toList s _ _ ∧
        Verdict inv s.images.toList _ _ :=
      visits_visited engine operator inv [] s.images.order whole rfl rfl rfl
    refine ⟨s.visits engine operator inv s.images.order, ?_, visited.acted, ?_, ?_⟩
    · simp [imageAttempts, named, nonempty, inv]
    · rw [visited.inOrder]
      exact List.take_prefix _ _
    · intro goesOn
      rw [pass] at goesOn
      rcases verdict with ⟨-, all, -⟩ | ⟨earlier, last, fault, -, -, -, -, stops⟩
      · rw [visited.inOrder, all, List.take_length]
      · rw [goesOn] at stops
        cases stops

end

/-! ## Options and command lines -/

/-- An option ends as it was answered, and reports its failed attempts. -/
structure OptionEnds (engine : Engine σ) (s : Session σ) (kind : OptionKind) (option : String)
    (first? second? : Option String) : Prop where
  /-- Noting the answers changes nothing. -/
  same : throughEnd Answered.world (s.noting.apply engine.noting kind option first? second?) =
    s.apply engine kind option first? second?
  /-- The option ends a run if and only if a resource ran out. -/
  ends : EndsAsAnswered
    (s.noting.apply engine.noting kind option first? second?).2.world.answers option
    (s.apply engine kind option first? second?)
  /-- Each failed attempt is reported once, in order, and nothing else is. -/
  reports : (s.apply engine kind option first? second?).2.log.incidents =
    s.log.incidents ++ reportsOf (s.applyAttempts engine kind option first? second?)
  /-- Attempts are reported under the option as written. -/
  under : ∀ a ∈ s.applyAttempts engine kind option first? second?, a.option = option
  /-- An option that is not for single images is attempted once at most. -/
  once : kind.isImage = false →
    (s.applyAttempts engine kind option first? second?).length ≤ 1

theorem optionEnds
    (engine : Engine σ)
    (s : Session σ)
    (kind : OptionKind)
    (option : String)
    (first? second? : Option String) :
    s.OptionEnds engine kind option first? second? where
  same := noting_apply engine kind option first? second? s
  ends := by
    obtain ⟨⟨answers, world, heard⟩, told⟩ := apply_ends engine kind option first? second? s.noting
    have ends := endsAsAnswered_of_hears told (world ▸ heard)
    rwa [noting_apply] at ends
  reports := by
    rw [apply_log]
    rfl
  under := option_of_mem_applyAttempts engine option first? second? s kind
  once := length_applyAttempts_le engine option first? second? s

/-- A command line ends as it was answered: with the step that a resource ran out for, after which
no step is done, or not at all. -/
structure RunEnds (engine : Engine σ) (s : Session σ) (tokens : List String) : Prop where
  /-- Noting the answers changes nothing. -/
  same : throughEnd Answered.world (s.noting.run engine.noting tokens) = s.run engine tokens
  /-- The run ends early if and only if a resource ran out. -/
  fatal_iff : (s.run engine tokens).1.isSome ↔
    ∃ what, some (.exhausted what) ∈ (s.noting.run engine.noting tokens).2.world.answers
  /-- It ends with the step during which that happened, and the incident stays in the log. -/
  stops : ∀ fatal, (s.run engine tokens).1 = some fatal →
    ∃ earlier step later between, CommandStep.parse tokens = earlier ++ step :: later ∧
      s.performAll engine earlier = (none, between) ∧
      between.perform engine step = s.run engine tokens ∧
      EndsAsAnswered (s.noting.run engine.noting tokens).2.world.answers step.option
        (s.run engine tokens)
  /-- Each failed attempt up to there is reported once, in order, and nothing else is. -/
  reports : (s.run engine tokens).2.incidents =
    s.incidents ++ reportsOf (s.runAttempts engine tokens)

theorem run_eq_performAll
    {engine : Engine σ}
    {s : Session σ}
    {tokens : List String}
    {fatal : Fatal}
    (stopped : (s.run engine tokens).1 = some fatal) :
    s.run engine tokens = s.performAll engine (CommandStep.parse tokens) := by
  revert stopped
  rw [run]
  rcases s.performAll engine (CommandStep.parse tokens) with ⟨_ | fatal', after⟩
  · rintro ⟨⟩
  · exact fun _ => rfl

theorem runEnds
    (engine : Engine σ)
    (s : Session σ)
    (tokens : List String) :
    s.RunEnds engine tokens := by
  have same := noting_run engine tokens s
  obtain ⟨answers, world, heard⟩ := run_heard engine tokens s.noting
  have heardAll : Hears (s.noting.run engine.noting tokens).2.world.answers
      ((s.noting.run engine.noting tokens).1.map Fatal.fault) := by
    rw [world]
    exact heard
  refine ⟨same, ?_, ?_, call_incidents engine s (.run tokens)⟩
  · rw [← heardAll.isSome_iff, Option.isSome_map, ← same]
    rfl
  · intro fatal stopped
    have stopped' : (s.noting.run engine.noting tokens).1 = some fatal := by
      rw [← stopped, ← same]
      rfl
    have whole := run_eq_performAll stopped'
    obtain ⟨earlier, step, later, between, steps, went, performed⟩ :=
      performAll_stops (whole.symm.trans (Prod.ext stopped' rfl))
    refine ⟨earlier, step, later, between.through Answered.world, steps, ?_, ?_, ?_⟩
    · rw [← noting_performAll, went]
      rfl
    · rw [perform_through engine.noting_lifts, performed, ← same, ← stopped']
    · have told := (perform_ends engine step between).told
      rw [performed, ← stopped'] at told
      rw [← same]
      exact endsAsAnswered_of_hears told heardAll

/-- An option ends its caller's run if and only if a resource ran out for the engine; otherwise it
reports the attempts that failed, one for each image or one in all.  A command line ends early with
the step for which a resource ran out. -/
theorem only_exhaustion_is_fatal
    (engine : Engine σ)
    (s : Session σ) :
    (∀ kind option first? second?, s.OptionEnds engine kind option first? second?) ∧
      (∀ option first? second? operator,
        ImageOperator.named? (Invocation.of option first? second?).name = some operator →
          s.AttemptsEach engine option first? second? operator) ∧
      ∀ tokens, s.RunEnds engine tokens :=
  ⟨optionEnds engine s, fun option first? second? _ named =>
    attemptsEach engine option first? second? s named, runEnds engine s⟩

/-- A read runs out of memory, and the option behind it is not done. -/
theorem read_out_of_memory_ends_run :
    let engine := parting.recording { exhausting := ["read"] }
    let s : Session (Recorded Nat) := { world := { world := 0 } }
    (s.run engine ["xc:red", "-flip"]).1 = some ⟨.exhausted "read: memory", "read"⟩ ∧
      (s.run engine ["xc:red", "-flip"]).2.log.incidents =
        [⟨.fatal, .exhausted "read: memory", "read"⟩] ∧
      s.RunEnds engine ["xc:red", "-flip"] := by
  intro engine s
  exact ⟨by decide +kernel, by decide +kernel, (only_exhaustion_is_fatal engine s).2.2 _⟩

end Session
end Darkroom
