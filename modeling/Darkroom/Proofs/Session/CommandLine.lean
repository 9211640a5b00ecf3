import Darkroom.Engine.Recording
import Darkroom.Proofs.Session.Incidents

/-!
# Command lines word by word

A command line is done as it is read: a step takes its words from those that are left, is done, and
the next step takes its words.  It comes to the same as reading all steps first, so what becomes of
a word is settled by the words before it, whatever the steps do.

Two command lines that are done one after the other come to the same as the one that they make
together, but for the brackets that stay open between them: the first reports them at its end.
-/

namespace Darkroom
namespace CommandStep

/-! ## Words and steps -/

/-- The words that a step is written with. -/
def words : CommandStep → List String
  | read source => [source]
  | apply _ option arguments => option :: arguments
  | unknown option => [option]
  | incomplete option => [option]

/-- Whether a step has the words it wants. -/
def isComplete : CommandStep → Bool
  | incomplete _ => false
  | _ => true

/-- What a step takes its words for: what does not look like an option is read, and an option that
is known takes as many arguments as its sign wants. -/
def Fits : CommandStep → Prop
  | read source => Catalog.isOption source = false
  | apply entry option arguments =>
      Catalog.isOption option = true ∧ Catalog.find? option = some entry ∧
        arguments.length = entry.argumentCount (Invocation.splitSign option).2
  | unknown option => Catalog.isOption option = true ∧ Catalog.find? option = none
  | incomplete option => Catalog.isOption option = true ∧ ∃ entry, Catalog.find? option = some entry

/-- The step that begins with a word, and the words that it leaves. -/
def next (token : String) (rest : List String) : CommandStep × List String :=
  if !Catalog.isOption token then (.read token, rest)
  else match Catalog.find? token with
    | none => (.unknown token, rest)
    | some entry =>
        let wanted := entry.argumentCount (Invocation.splitSign token).2
        if rest.length < wanted then (.incomplete token, [])
        else (.apply entry token (rest.take wanted), rest.drop wanted)

variable (token : String) (rest more : List String)

@[simp] theorem parse_nil : parse [] = [] := by
  simp [parse]

theorem parse_cons :
    parse (token :: rest) = (next token rest).1 :: parse (next token rest).2 := by
  rw [parse, next]
  split
  · rfl
  · cases Catalog.find? token with
    | none => rfl
    | some entry =>
        dsimp only
        split
        · simp
        · rfl

theorem next_fits : (next token rest).1.Fits := by
  unfold next
  split
  · next word => simpa [Fits] using word
  · next option =>
    rw [Bool.not_eq_true', Bool.not_eq_false] at option
    cases found : Catalog.find? token with
    | none => exact ⟨option, found⟩
    | some entry =>
        dsimp only
        split
        · exact ⟨option, entry, found⟩
        · next enough =>
          exact ⟨option, found, List.length_take_of_le (Nat.not_lt.mp enough)⟩

theorem length_next_le : (next token rest).2.length ≤ rest.length := by
  unfold next
  split
  · exact Nat.le_refl _
  · split
    · exact Nat.le_refl _
    · dsimp only
      split
      · exact Nat.zero_le _
      · simp

variable {token rest}

/-- A step that has its words leaves those behind them, and does not look at them. -/
theorem next_append
    (complete : (next token rest).1.isComplete) :
    (next token rest).1.words ++ (next token rest).2 = token :: rest ∧
      next token (rest ++ more) = ((next token rest).1, (next token rest).2 ++ more) := by
  revert complete
  unfold next
  cases Catalog.isOption token with
  | false => exact fun _ => ⟨rfl, rfl⟩
  | true =>
      cases Catalog.find? token with
      | none => exact fun _ => ⟨rfl, rfl⟩
      | some entry =>
          simp only [Bool.not_true, Bool.false_eq_true, ↓reduceIte]
          split
          · rintro ⟨⟩
          · next enough =>
            intro complete
            have within := Nat.not_lt.mp enough
            rw [if_neg (by rw [List.length_append]; omega),
              List.take_append_of_le_length within, List.drop_append_of_le_length within]
            exact ⟨congrArg (token :: ·) (List.take_append_drop ..), rfl⟩

/-- A step that misses words leaves none. -/
theorem next_of_incomplete
    (incomplete : (next token rest).1.isComplete = false) :
    next token rest = (.incomplete token, []) := by
  revert incomplete
  unfold next
  split
  · rintro ⟨⟩
  · cases Catalog.find? token with
    | none => rintro ⟨⟩
    | some entry =>
        dsimp only
        split
        · exact fun _ => rfl
        · rintro ⟨⟩

/-! ## Command lines and steps -/

/-- Induction on a command line by the words that its steps leave. -/
@[elab_as_elim]
theorem parse_induction
    {motive : List String → Prop}
    (nil : motive [])
    (cons : ∀ token rest, motive (next token rest).2 → motive (token :: rest)) :
    ∀ tokens, motive tokens
  | [] => nil
  | token :: rest => cons token rest (parse_induction nil cons (next token rest).2)
termination_by tokens => tokens.length
decreasing_by exact Nat.lt_succ_of_le (length_next_le token rest)

theorem parse_fits (tokens : List String) : ∀ step ∈ parse tokens, step.Fits := by
  induction tokens using parse_induction with
  | nil => simp
  | cons token rest inductionHypothesis =>
      rw [parse_cons]
      exact List.forall_mem_cons.mpr ⟨next_fits token rest, inductionHypothesis⟩

/-- The steps are written with the words of the command line in order, up to one that misses
words. -/
theorem parse_words_prefix
    (tokens : List String) :
    (parse tokens).flatMap words <+: tokens := by
  induction tokens using parse_induction with
  | nil => simp
  | cons token rest inductionHypothesis =>
      rw [parse_cons, List.flatMap_cons]
      cases complete : (next token rest).1.isComplete with
      | true =>
          rw [← (next_append [] complete).1]
          exact (List.prefix_append_right_inj _).mpr inductionHypothesis
      | false =>
          rw [next_of_incomplete complete]
          exact ⟨rest, by simp [words]⟩

/-- The steps are written with all words of the command line, if none misses words. -/
theorem parse_words
    {tokens : List String}
    (complete : ∀ step ∈ parse tokens, step.isComplete) :
    (parse tokens).flatMap words = tokens := by
  induction tokens using parse_induction with
  | nil => simp
  | cons token rest inductionHypothesis =>
      rw [parse_cons, List.forall_mem_cons] at complete
      rw [parse_cons, List.flatMap_cons, inductionHypothesis complete.2]
      exact (next_append [] complete.1).1

/-- The steps of two command lines follow each other, if the first misses no words. -/
theorem parse_append
    {tokens : List String}
    (complete : ∀ step ∈ parse tokens, step.isComplete)
    (more : List String) :
    parse (tokens ++ more) = parse tokens ++ parse more := by
  induction tokens using parse_induction with
  | nil => simp
  | cons token rest inductionHypothesis =>
      rw [parse_cons, List.forall_mem_cons] at complete
      rw [List.cons_append, parse_cons, parse_cons, (next_append more complete.1).2,
        inductionHypothesis complete.2]
      rfl

end CommandStep

namespace Session

variable {σ : Type} (engine : Engine σ)

/-! ## Word by word -/

/-- The words are taken from left to right: a step takes those that it wants, is done, and
incidents are caught, until no words are left or a fatal incident ends the run.  Gives the steps
that were done, how the run ended, and the session after it. -/
def drive : List String → Session σ → List CommandStep × Option Fatal × Session σ
  | [], s => ([], none, s.finish)
  | token :: rest, s =>
      let step := (CommandStep.next token rest).1
      match s.perform engine step with
      | (some fatal, s) => ([step], some fatal, s)
      | (none, s) =>
          let (steps, ended) := drive (CommandStep.next token rest).2 (s.catchIncidents false).2
          (step :: steps, ended)
termination_by tokens => tokens.length
decreasing_by exact Nat.lt_succ_of_le (CommandStep.length_next_le token rest)

/-- The driver does what the command line says when it is read first: it takes the steps of the
command line in order, all of them unless it ends with a fatal incident. -/
theorem drive_eq_run
    (tokens : List String)
    (s : Session σ) :
    (s.drive engine tokens).2 = s.run engine tokens ∧
      (s.drive engine tokens).1 <+: CommandStep.parse tokens ∧
      ((s.drive engine tokens).2.1 = none →
        (s.drive engine tokens).1 = CommandStep.parse tokens) := by
  induction tokens using CommandStep.parse_induction generalizing s with
  | nil => simp [drive, run, performAll]
  | cons token rest inductionHypothesis =>
      rw [drive, run, CommandStep.parse_cons, performAll]
      rcases s.perform engine (CommandStep.next token rest).1 with ⟨_ | fatal, after⟩
      · obtain ⟨same, taken, all⟩ := inductionHypothesis (after.catchIncidents false).2
        exact ⟨same, (List.prefix_cons_inj _).mpr taken,
          fun ended => congrArg (_ :: ·) (all ended)⟩
      · refine ⟨rfl, (List.prefix_cons_inj _).mpr List.nil_prefix, ?_⟩
        rintro ⟨⟩

/-! ## Steps after steps -/

/-- Steps are done, and brackets that stay open are reported. -/
def runSteps (steps : List CommandStep) (s : Session σ) : Option Fatal × Session σ :=
  match s.performAll engine steps with
  | (some fatal, s) => (some fatal, s)
  | (none, s) => (none, s.finish)

variable {engine} {s : Session σ}

theorem run_eq_runSteps
    (tokens : List String) :
    s.run engine tokens = s.runSteps engine (CommandStep.parse tokens) :=
  rfl

@[simp] theorem runSteps_nil : s.runSteps engine [] = (none, s.finish) := rfl

@[simp] theorem run_nil : s.run engine [] = (none, s.finish) := by
  simp [run_eq_runSteps]

theorem runSteps_cons
    (step : CommandStep)
    (rest : List CommandStep) :
    s.runSteps engine (step :: rest) =
      match s.perform engine step with
      | (some fatal, s) => (some fatal, s)
      | (none, s) => (s.catchIncidents false).2.runSteps engine rest := by
  rw [runSteps, performAll]
  rcases s.perform engine step with ⟨_ | fatal, after⟩ <;> rfl

theorem runSteps_append
    {first : List CommandStep}
    (goesOn : (s.performAll engine first).1 = none)
    (rest : List CommandStep) :
    s.runSteps engine (first ++ rest) = (s.performAll engine first).2.runSteps engine rest := by
  induction first generalizing s with
  | nil => rfl
  | cons step first inductionHypothesis =>
      revert goesOn
      rw [List.cons_append, runSteps_cons, performAll]
      rcases s.perform engine step with ⟨_ | fatal, after⟩
      · exact inductionHypothesis
      · rintro ⟨⟩

theorem performAll_fst_of_run
    {tokens : List String}
    (ended : (s.run engine tokens).1 = none) :
    (s.performAll engine (CommandStep.parse tokens)).1 = none := by
  revert ended
  rw [run]
  rcases s.performAll engine (CommandStep.parse tokens) with ⟨_ | fatal, after⟩
  · exact fun _ => rfl
  · exact id

/-- Of two command lines done as one, the second is done in the session in which the steps of the
first end. -/
theorem run_append
    {tokens : List String}
    (complete : ∀ step ∈ CommandStep.parse tokens, step.isComplete)
    (ended : (s.run engine tokens).1 = none)
    (more : List String) :
    let cut := (s.performAll engine (CommandStep.parse tokens)).2
    s.run engine (tokens ++ more) = cut.run engine more ∧ (s.run engine tokens).2 = cut.finish := by
  intro cut
  have goesOn := performAll_fst_of_run ended
  constructor
  · rw [run_eq_runSteps, CommandStep.parse_append complete, runSteps_append goesOn]
    rfl
  · rw [run, show s.performAll engine (CommandStep.parse tokens) = (none, cut) from
      Prod.ext goesOn rfl]

/-! ## The log between two steps -/

theorem not_hasFatal_empty : ¬ ({} : IncidentLog).HasFatal := by
  simp [IncidentLog.HasFatal]

/-- When a step goes on, everything in the log is caught. -/
theorem catchIncidents_of_goesOn
    {step : CommandStep}
    {after : Session σ}
    (calm : ¬ s.log.HasFatal)
    (goesOn : s.perform engine step = (none, after)) :
    (after.catchIncidents false).2 = after.recast id {} after.incidents := by
  refine catchIncidents_of_not_hasFatal (.inr ?_)
  have log := perform_log engine s step
  have survived := perform_fst engine step s
  rw [goesOn] at log survived
  rw [log, IncidentLog.hasFatal_after_iff]
  rintro (before | ⟨a, mem, fault, failed, isFatal⟩)
  · exact calm before
  · rw [Attempt.findSome?_fatal?_eq_none_iff.mp survived.symm a mem fault failed] at isFatal
    cases isFatal

theorem performAll_log_of_empty
    {steps : List CommandStep}
    (empty : s.log = {})
    (goesOn : (s.performAll engine steps).1 = none) :
    (s.performAll engine steps).2.log = {} := by
  induction steps generalizing s with
  | nil => exact empty
  | cons step rest inductionHypothesis =>
      revert goesOn
      rw [performAll]
      rcases ended : s.perform engine step with ⟨_ | fatal, after⟩
      · refine inductionHypothesis ?_
        rw [catchIncidents_of_goesOn (empty ▸ not_hasFatal_empty) ended]
        rfl
      · rintro ⟨⟩

/-- When steps were done and went on, nothing is left in the log. -/
theorem performAll_log
    {step : CommandStep}
    {rest : List CommandStep}
    (calm : ¬ s.log.HasFatal)
    (goesOn : (s.performAll engine (step :: rest)).1 = none) :
    (s.performAll engine (step :: rest)).2.log = {} := by
  revert goesOn
  rw [performAll]
  rcases ended : s.perform engine step with ⟨_ | fatal, after⟩
  · refine performAll_log_of_empty ?_
    rw [catchIncidents_of_goesOn calm ended]
    rfl
  · rintro ⟨⟩

/-! ## What was caught before -/

/-- The session with other incidents caught. -/
def withCaught (s : Session σ) (caught : List Incident) : Session σ :=
  { s with caught }

@[simp] theorem withCaught_self : s.withCaught s.caught = s := rfl

theorem perform_withCaught
    (step : CommandStep)
    (caught : List Incident) :
    (s.withCaught caught).perform engine step =
      ((s.perform engine step).1, (s.perform engine step).2.withCaught caught) := by
  have recasted : (s.recast id s.log caught).perform engine step = _ :=
    perform_recast (.refl engine) step s
  rw [← perform_log] at recasted
  exact recasted

/-- What is caught comes behind what was caught before. -/
theorem catchIncidents_withCaught
    (s : Session σ)
    (all : Bool) :
    ∃ newly, ∀ caught,
      ((s.withCaught caught).catchIncidents all).2 =
        (s.catchIncidents all).2.withCaught (caught ++ newly) := by
  unfold catchIncidents
  change ∃ newly, ∀ caught, (if s.log.worst? == some .fatal && !all then _ else _ :
    Bool × Session σ).2 = _
  dsimp only
  split
  · exact ⟨[], fun caught => by simp⟩
  · exact ⟨s.log.incidents, fun caught => rfl⟩

theorem finish_withCaught
    (s : Session σ) :
    ∃ newly, ∀ caught, (s.withCaught caught).finish = s.finish.withCaught (caught ++ newly) := by
  obtain ⟨newly, caughtLast⟩ :=
    catchIncidents_withCaught (s.report .unbalanced endOfArguments) false
  unfold finish
  change ∃ newly, ∀ caught, (if s.scopes.isEmpty then _ else _) = _
  split
  · exact ⟨[], fun caught => by simp⟩
  · exact ⟨newly, caughtLast⟩

/-- What steps catch comes behind what was caught before, and nothing else depends on that. -/
theorem runSteps_withCaught
    (engine : Engine σ)
    (steps : List CommandStep)
    (s : Session σ) :
    ∃ newly, ∀ caught,
      (s.withCaught caught).runSteps engine steps =
        ((s.runSteps engine steps).1,
          (s.runSteps engine steps).2.withCaught (caught ++ newly)) := by
  induction steps generalizing s with
  | nil =>
      obtain ⟨newly, finished⟩ := finish_withCaught s
      exact ⟨newly, fun caught => congrArg (none, ·) (finished caught)⟩
  | cons step rest inductionHypothesis =>
      simp only [runSteps_cons, perform_withCaught]
      rcases s.perform engine step with ⟨_ | fatal, after⟩
      · obtain ⟨atOnce, caughtAtOnce⟩ := catchIncidents_withCaught after false
        obtain ⟨later, caughtLater⟩ := inductionHypothesis (after.catchIncidents false).2
        refine ⟨atOnce ++ later, fun caught => ?_⟩
        dsimp only
        rw [caughtAtOnce, caughtLater, List.append_assoc]
      · exact ⟨[], fun caught => by simp⟩

/-! ## Two command lines -/

/-- Two command lines do what one made of both does.  What the first reports at its end comes
between what it caught before and what is caught later; nothing else is different. -/
def Splits (engine : Engine σ) (s : Session σ) (tokens more : List String) : Prop :=
  let once := s.run engine (tokens ++ more)
  let first := (s.run engine tokens).2
  ∃ early newly,
    first.caught = early ++ reportsOf first.finishAttempts ∧
      once.2.caught = early ++ newly ∧
      first.run engine more = (once.1, once.2.withCaught (first.caught ++ newly))

/-- The first command line is empty and catches what was in the log, as a bracket is open; done
together with the second, it does not, as the very first step ends with a fatal incident. -/
def Exposes (engine : Engine σ) (s : Session σ) (tokens more : List String) : Prop :=
  tokens = [] ∧ s.log ≠ {} ∧ s.scopes.isEmpty = false ∧
    ∃ step later, CommandStep.parse more = step :: later ∧ (s.perform engine step).1.isSome

theorem finishAttempts_finish (s : Session σ) : s.finish.finishAttempts = s.finishAttempts := by
  have same : s.finish.scopes = s.scopes := by
    unfold finish
    split
    · rfl
    · exact (catchIncidents_sameLists _ false).scopes
  rw [finishAttempts, finishAttempts, same]

/-- An open bracket is reported, and everything in the log is caught. -/
theorem finish_of_open
    (calm : ¬ s.log.HasFatal)
    (stillOpen : s.scopes.isEmpty = false) :
    s.finish = s.recast id {} (s.incidents ++ reportsOf s.finishAttempts) := by
  have calmAfter : ¬ (s.report .unbalanced endOfArguments).log.HasFatal := by
    rintro ⟨i, mem, fatal⟩
    rcases List.mem_append.mp mem with before | last
    · exact calm ⟨i, before, fatal⟩
    · obtain rfl := List.mem_singleton.mp last
      cases fatal
  rw [finish, finishAttempts, stillOpen, if_neg Bool.false_ne_true, if_neg Bool.false_ne_true,
    catchIncidents_of_not_hasFatal (.inr calmAfter), incidents, incidents, List.append_assoc]
  rfl

theorem finish_log_of_open
    (calm : ¬ s.log.HasFatal)
    (stillOpen : s.scopes.isEmpty = false) :
    s.finish.log = {} := by
  rw [finish_of_open calm stillOpen]
  rfl

theorem finish_caught_of_open
    (calm : ¬ s.log.HasFatal)
    (stillOpen : s.scopes.isEmpty = false) :
    s.finish.caught = s.incidents ++ reportsOf s.finishAttempts := by
  rw [finish_of_open calm stillOpen]
  rfl

/-- When the log is empty or no bracket is open, the end of a command line only adds its report to
what was caught. -/
theorem finish_eq_withCaught
    (calm : ¬ s.log.HasFatal)
    (settled : s.log = {} ∨ s.scopes.isEmpty) :
    s.finish = s.withCaught (s.caught ++ reportsOf s.finishAttempts) := by
  cases stillOpen : s.scopes.isEmpty with
  | true => simp [finish, finishAttempts, stillOpen]
  | false =>
      have empty : s.log = {} := by simpa [stillOpen] using settled
      rw [finish_of_open calm stillOpen, incidents, empty, List.append_nil, withCaught, recast,
        ← empty]
      rfl

/-- Two command lines are as one when the log is empty between them. -/
theorem splits_of_settled
    {cut : Session σ}
    {tokens more : List String}
    (once : s.run engine (tokens ++ more) = cut.run engine more)
    (first : (s.run engine tokens).2 = cut.finish)
    (calm : ¬ cut.log.HasFatal)
    (settled : cut.log = {} ∨ cut.scopes.isEmpty) :
    s.Splits engine tokens more := by
  obtain ⟨newly, caughtLater⟩ := runSteps_withCaught engine (CommandStep.parse more) cut
  have ended := finish_eq_withCaught calm settled
  refine ⟨cut.caught, newly, ?_, ?_, ?_⟩
  · rw [first, finishAttempts_finish, ended]
    rfl
  · rw [once]
    exact congrArg (·.2.caught) (caughtLater cut.caught)
  · rw [once, first, ended]
    exact caughtLater _

/-! ### An empty command line before another -/

section

variable (calm : ¬ s.log.HasFatal) (stillOpen : s.scopes.isEmpty = false)
include calm stillOpen

/-- A step after an empty command line ends as it does before, but it finds the log empty. -/
theorem perform_finish
    {step : CommandStep}
    {fatal? : Option Fatal}
    {after : Session σ}
    (performed : s.perform engine step = (fatal?, after)) :
    s.finish.perform engine step =
      (fatal?, after.recast id (.after {} (s.stepAttempts engine step))
        (s.incidents ++ reportsOf s.finishAttempts)) := by
  rw [finish_of_open calm stillOpen, perform_recast (.refl engine), performed]
  rfl

theorem splits_nil_nil : s.Splits engine [] [] := by
  have caught := finish_caught_of_open calm stillOpen
  have drained := finish_log_of_open calm stillOpen
  refine ⟨s.incidents, reportsOf s.finishAttempts, ?_, ?_, ?_⟩
  · rw [run_nil, finishAttempts_finish, caught]
  · rw [List.append_nil, run_nil, caught]
  · rw [List.append_nil, run_nil, run_nil, finish_eq_withCaught (drained ▸ not_hasFatal_empty)
      (.inl drained), finishAttempts_finish]

theorem splits_nil_of_goesOn
    {more : List String}
    {step : CommandStep}
    {later : List CommandStep}
    {after : Session σ}
    (steps : CommandStep.parse more = step :: later)
    (goesOn : s.perform engine step = (none, after)) :
    s.Splits engine [] more := by
  have caught := finish_caught_of_open calm stillOpen
  have reported : after.incidents = s.incidents ++ reportsOf (s.stepAttempts engine step) := by
    rw [← perform_incidents, goesOn]
  -- Both command lines are in the same session after the step, but for what was caught.
  have once : s.run engine more = (after.recast id {} after.incidents).runSteps engine later := by
    rw [run_eq_runSteps, steps, runSteps_cons, goesOn]
    dsimp only
    rw [catchIncidents_of_goesOn calm goesOn]
  have second : s.finish.run engine more =
      ((after.recast id {} after.incidents).withCaught
        (s.incidents ++ reportsOf s.finishAttempts ++
          reportsOf (s.stepAttempts engine step))).runSteps engine later := by
    have performed := perform_finish calm stillOpen goesOn
    rw [run_eq_runSteps, steps, runSteps_cons, performed]
    dsimp only
    rw [catchIncidents_of_goesOn (finish_log_of_open calm stillOpen ▸ not_hasFatal_empty) performed]
    rfl
  obtain ⟨newly, caughtLater⟩ :=
    runSteps_withCaught engine later (after.recast id {} after.incidents)
  refine ⟨s.incidents, reportsOf (s.stepAttempts engine step) ++ newly, ?_, ?_, ?_⟩
  · rw [run_nil, finishAttempts_finish, caught]
  · rw [List.nil_append, once, ← List.append_assoc, ← reported]
    exact congrArg (·.2.caught) (caughtLater after.incidents)
  · rw [List.nil_append, run_nil, once, second, caughtLater, caught, List.append_assoc _ _ newly]

/-- When the first step ends with a fatal incident, what was in the log stays there, unless an
empty command line went before it and caught it. -/
theorem run_of_fatal
    {more : List String}
    {step : CommandStep}
    {later : List CommandStep}
    {fatal : Fatal}
    {after : Session σ}
    (steps : CommandStep.parse more = step :: later)
    (stops : s.perform engine step = (some fatal, after)) :
    let reports := reportsOf (s.stepAttempts engine step)
    s.run engine more =
        (some fatal, after.recast id ⟨s.log.incidents ++ reports⟩ s.caught) ∧
      s.finish.run engine more =
        (some fatal, after.recast id ⟨reports⟩ s.finish.caught) ∧
      s.finish.caught = s.incidents ++ reportsOf s.finishAttempts := by
  intro reports
  have caught := finish_caught_of_open calm stillOpen
  refine ⟨?_, ?_, caught⟩
  · have itself := perform_eq_recastEnd engine s step
    rw [stops] at itself
    rw [run_eq_runSteps, steps, runSteps_cons, stops]
    exact itself
  · rw [run_eq_runSteps, steps, runSteps_cons, perform_finish calm stillOpen stops, caught]
    rfl

end

/-! ## The driver -/

/-- A command line is done as it is read: words are what they are whatever the session does. -/
structure DoneAsRead (engine : Engine σ) (s : Session σ) (tokens : List String) : Prop where
  /-- Word by word the command line comes to the same as step by step. -/
  same : (s.drive engine tokens).2 = s.run engine tokens
  /-- The steps that are done are those of the command line, in order. -/
  taken : (s.drive engine tokens).1 <+: CommandStep.parse tokens
  /-- All are done unless one ends with a fatal incident. -/
  all : (s.drive engine tokens).2.1 = none →
    (s.drive engine tokens).1 = CommandStep.parse tokens
  /-- The steps are written with the words of the command line, in order and unchanged. -/
  written : (CommandStep.parse tokens).flatMap CommandStep.words <+: tokens
  /-- No word is left over unless the last step misses some. -/
  complete : (∀ step ∈ CommandStep.parse tokens, step.isComplete) →
    (CommandStep.parse tokens).flatMap CommandStep.words = tokens
  /-- Every step takes its words for what they look like and for what its option wants. -/
  fits : ∀ step ∈ CommandStep.parse tokens, step.Fits

theorem doneAsRead
    (engine : Engine σ)
    (s : Session σ)
    (tokens : List String) :
    s.DoneAsRead engine tokens := by
  obtain ⟨same, taken, all⟩ := drive_eq_run engine tokens s
  exact ⟨same, taken, all, CommandStep.parse_words_prefix tokens, CommandStep.parse_words,
    CommandStep.parse_fits tokens⟩

/-- An empty command line catches what was in the log; done together with the second command line
it leaves it there. -/
structure CatchesEarly (engine : Engine σ) (s : Session σ) (more : List String) : Prop where
  /-- The empty command line catches what was in the log, and reports the open bracket. -/
  first : (s.run engine []).2.caught =
    s.caught ++ s.log.incidents ++ reportsOf s.finishAttempts
  /-- The second command line by itself catches nothing. -/
  once : (s.run engine more).2.caught = s.caught
  /-- What was in the log stays in front of what the second command line reports. -/
  log : (s.run engine more).2.log.incidents =
    s.log.incidents ++ ((s.run engine []).2.run engine more).2.log.incidents
  /-- Nothing else is different. -/
  second : (s.run engine []).2.run engine more =
    ((s.run engine more).1,
      { (s.run engine more).2 with
        log := ((s.run engine []).2.run engine more).2.log
        caught := (s.run engine []).2.caught })

theorem catchesEarly
    {more : List String}
    (calm : ¬ s.log.HasFatal)
    (exposes : s.Exposes engine [] more) :
    s.CatchesEarly engine more := by
  obtain ⟨-, -, stillOpen, step, later, steps, stops⟩ := exposes
  cases performed : s.perform engine step with
  | mk fatal? after =>
      obtain ⟨fatal, rfl⟩ := Option.isSome_iff_exists.mp (performed ▸ stops)
      obtain ⟨once, second, caught⟩ := run_of_fatal calm stillOpen steps performed
      constructor
      case first => rw [run_nil, caught, incidents]
      case once => rw [once]; rfl
      case log => rw [once, run_nil, second]; rfl
      case second => rw [once, run_nil, second]; rfl

/-- Every command line is done as it is read.  If one misses no words and ends without a fatal
incident, another one after it does what both do as one, and the report of open brackets is all
that comes in between; only an empty command line can catch too early what the log holds. -/
theorem command_lines_read_and_split
    (engine : Engine σ)
    (s : Session σ) :
    (∀ tokens, s.DoneAsRead engine tokens) ∧
      ∀ tokens more,
        (∀ step ∈ CommandStep.parse tokens, step.isComplete) → ¬ s.log.HasFatal →
          (s.run engine tokens).1 = none →
          (¬ s.Exposes engine tokens more → s.Splits engine tokens more) ∧
            (s.Exposes engine tokens more → s.CatchesEarly engine more) := by
  refine ⟨doneAsRead engine s, fun tokens more complete calm ended => ⟨?_, ?_⟩⟩
  · intro sheltered
    obtain ⟨once, first⟩ := run_append complete ended more
    cases tokens with
    | cons token rest =>
        have goesOn := performAll_fst_of_run ended
        rw [CommandStep.parse_cons] at once first goesOn
        have drained := performAll_log calm goesOn
        exact splits_of_settled once first (drained ▸ not_hasFatal_empty) (.inl drained)
    | nil =>
        simp only [CommandStep.parse_nil, performAll] at once first
        by_cases settled : s.log = {} ∨ s.scopes.isEmpty
        · exact splits_of_settled once first calm settled
        · obtain ⟨pending, stillOpen⟩ := not_or.mp settled
          rw [Bool.not_eq_true] at stillOpen
          cases steps : CommandStep.parse more with
          | nil =>
              cases more with
              | nil => exact splits_nil_nil calm stillOpen
              | cons token rest => simp [CommandStep.parse_cons] at steps
          | cons step later =>
              cases performed : s.perform engine step with
              | mk fatal? after =>
                  cases fatal? with
                  | none => exact splits_nil_of_goesOn calm stillOpen steps performed
                  | some fatal =>
                      have stops : (s.perform engine step).1.isSome := by
                        rw [performed]
                        rfl
                      exact absurd ⟨rfl, pending, stillOpen, step, later, steps, stops⟩ sheltered
  · rintro exposes
    obtain rfl := exposes.1
    exact catchesEarly calm exposes

/-- A bracket is opened in the first command line and closed in the second; by itself the first
reports it. -/
theorem bracket_across_command_lines :
    let s : Session Nat := { world := 0 }
    (∀ step ∈ CommandStep.parse ["("], step.isComplete) ∧ ¬ s.log.HasFatal ∧
      (s.run parting ["("]).1 = none ∧ ¬ s.Exposes parting ["("] [")"] ∧
      s.Splits parting ["("] [")"] ∧
      (s.run parting ["(", ")"]).2.caught = [] ∧
      ((s.run parting ["("]).2.run parting [")"]).2.caught =
        [⟨.error, .unbalanced, endOfArguments⟩] := by
  intro s
  have complete : ∀ step ∈ CommandStep.parse ["("], step.isComplete := by decide +kernel
  have ended : (s.run parting ["("]).1 = none := by decide +kernel
  have sheltered : ¬ s.Exposes parting ["("] [")"] := by rintro ⟨⟨⟩, -⟩
  have splits := (command_lines_read_and_split parting s).2 ["("] [")"] complete
    not_hasFatal_empty ended
  exact ⟨complete, not_hasFatal_empty, ended, sheltered, splits.1 sheltered,
    by decide +kernel, by decide +kernel⟩

/-- A bracket is open and another was refused, which nobody caught.  Then a read runs out of memory:
a run of nothing before it makes a difference. -/
theorem refusal_caught_by_empty_command_line :
    let engine := parting.recording { exhausting := ["read"] }
    let fresh : Session (Recorded Nat) := { world := { world := 0 } }
    let s := ((fresh.applySpecial engine "(" none).2.applySpecial engine "\x7d" none).2
    (∀ step ∈ CommandStep.parse [], step.isComplete) ∧ ¬ s.log.HasFatal ∧
      (s.run engine []).1 = none ∧ ¬ s.Splits engine [] ["xc:red"] := by
  intro engine fresh s
  have incidents : s.log.incidents = [⟨.error, .unbalanced, "\x7d"⟩] := by decide
  refine ⟨by simp, ?_, by decide +kernel, ?_⟩
  · simp [IncidentLog.HasFatal, incidents]
  · rintro ⟨early, newly, -, -, split⟩
    have logs : ((s.run engine []).2.run engine ["xc:red"]).2.log =
        (s.run engine ([] ++ ["xc:red"])).2.log := congrArg (·.2.log) split
    exact absurd logs (by decide +kernel)

end Session
end Darkroom
