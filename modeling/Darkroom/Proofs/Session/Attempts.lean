import Darkroom.Proofs.Session.Invariant

/-!
# Attempts

Whatever an option or a command line tries is an attempt under a name, and it may come to a fault.
A setting, an operator on the list and an option of the session as a whole are attempted once, an
operator on one image once for each image it visits; an operator that is refused because there is
no image is attempted once as well.  A command line also attempts words that no catalogue knows,
options whose arguments are missing, and to close a bracket that was left open.

The attempts of a call are read off what its options decide and what the engine answers, without a
look at what is reported.
-/

namespace Darkroom

/-- Something that was tried. -/
structure Attempt where
  /-- What it is reported under. -/
  option : String
  /-- What went wrong. -/
  fault? : Option Fault
deriving DecidableEq

namespace Attempt

/-- The attempt of an option that came to an outcome. -/
def of {α : Type} (inv : Invocation) : Except Fault α → Attempt
  | .ok _ => ⟨inv.option, none⟩
  | .error fault => ⟨inv.option, some fault⟩

/-- The report of an attempt that failed. -/
def incident? (a : Attempt) : Option Incident :=
  a.fault?.map fun fault => ⟨fault.severity, fault, a.option⟩

/-- The failure that ends a call, if the fault is fatal. -/
def fatal? (a : Attempt) : Option Fatal :=
  (a.fault?.filter Fault.isFatal).map fun fault => ⟨fault, a.option⟩

variable {α : Type} (inv : Invocation)

@[simp] theorem of_option (outcome : Except Fault α) : (of inv outcome).option = inv.option := by
  cases outcome <;> rfl

@[simp] theorem incident?_of_ok (a : α) : (of inv (.ok a)).incident? = none := rfl

@[simp] theorem incident?_of_error (fault : Fault) :
    (of inv (.error fault : Except Fault α)).incident? =
      some ⟨fault.severity, fault, inv.option⟩ := rfl

@[simp] theorem fatal?_of_ok (a : α) : (of inv (.ok a)).fatal? = none := rfl

@[simp] theorem fatal?_of_error (fault : Fault) :
    (of inv (.error fault : Except Fault α)).fatal? =
      if fault.isFatal then some ⟨fault, inv.option⟩ else none := by
  cases fatal : fault.isFatal <;> simp [fatal?, of, fatal]

/-- Nothing stops a call when no attempt comes to a fatal fault. -/
theorem findSome?_fatal?_eq_none_iff
    {attempts : List Attempt} :
    attempts.findSome? fatal? = none ↔
      ∀ a ∈ attempts, ∀ fault, a.fault? = some fault → fault.isFatal = false := by
  simp [fatal?, List.findSome?_eq_none_iff, Option.filter_eq_none_iff]

end Attempt

/-- The log with the reports of some attempts, in order. -/
def IncidentLog.after (log : IncidentLog) (attempts : List Attempt) : IncidentLog :=
  ⟨log.incidents ++ attempts.filterMap Attempt.incident?⟩

@[simp] theorem IncidentLog.after_nil (log : IncidentLog) : log.after [] = log := by
  simp [after]

@[simp] theorem IncidentLog.after_append
    (log : IncidentLog)
    (first second : List Attempt) :
    log.after (first ++ second) = (log.after first).after second := by
  simp [after]

theorem IncidentLog.after_cons
    (log : IncidentLog)
    (a : Attempt)
    (rest : List Attempt) :
    log.after (a :: rest) = (log.after [a]).after rest :=
  log.after_append [a] rest

@[simp] theorem IncidentLog.after_ok {α : Type} (log : IncidentLog) (inv : Invocation) (a : α) :
    log.after [.of inv (.ok a)] = log := by
  simp [after, List.filterMap_cons]

@[simp] theorem IncidentLog.after_error
    {α : Type}
    (log : IncidentLog)
    (inv : Invocation)
    (fault : Fault) :
    log.after [.of inv (.error fault : Except Fault α)] = log.report fault inv.option := by
  simp [after, report, reportAs, add]

namespace Session

variable {σ : Type} (engine : Engine σ)

/-! ## Options by themselves -/

/-- A setting decides, and it is done. -/
def actOnSetting (setting : SettingOption) (inv : Invocation) (s : Session σ) : Acted σ Unit :=
  match setting s.settings inv with
  | .ok plan => s.performSetting engine plan
  | .error fault => (.error fault, s)

/-- An operator on the list decides, and it is done, if there are images or it needs none. -/
def actOnList (operator : ListOperator) (inv : Invocation) (s : Session σ) : Acted σ Unit :=
  if s.images.isEmpty && inv.name != "limit" then (.error .noImages, s)
  else match operator (s.syncAll.view engine) s.syncAll.images inv with
    | .ok plan => s.syncAll.performOnList engine plan
    | .error fault => (.error fault, s.syncAll)

theorem applySetting_eq
    (option : String)
    (first? : Option String)
    (s : Session σ) :
    s.applySetting engine option first? =
      let inv := Invocation.of option first? none
      match SettingOption.named? inv.name with
      | none => (none, s)
      | some setting => settle inv (s.actOnSetting engine setting inv) :=
  rfl

theorem applyToList_eq
    (option : String)
    (first? second? : Option String)
    (s : Session σ) :
    s.applyToList engine option first? second? =
      let inv := Invocation.of option first? second?
      match ListOperator.named? inv.name with
      | none => (none, s)
      | some operator => settle inv (s.actOnList engine operator inv) := by
  unfold applyToList actOnList
  extract_lets inv
  cases ListOperator.named? inv.name with
  | none => rfl
  | some operator =>
      dsimp only
      split <;> rfl

/-! ## The attempts of a call -/

def settingAttempts (option : String) (first? : Option String) (s : Session σ) : List Attempt :=
  let inv := Invocation.of option first? none
  match SettingOption.named? inv.name with
  | none => []
  | some setting => [.of inv (s.actOnSetting engine setting inv).1]

def imageAttempts (option : String) (first? second? : Option String) (s : Session σ) :
    List Attempt :=
  let inv := Invocation.of option first? second?
  match ImageOperator.named? inv.name with
  | none => []
  | some operator =>
      if s.images.isEmpty then [⟨option, some .noImages⟩]
      else (s.visits engine operator inv s.images.order).map fun v => .of inv v.outcome

def listAttempts (option : String) (first? second? : Option String) (s : Session σ) :
    List Attempt :=
  let inv := Invocation.of option first? second?
  match ListOperator.named? inv.name with
  | none => []
  | some operator => [.of inv (s.actOnList engine operator inv).1]

def specialAttempts (option : String) (first? : Option String) (s : Session σ) : List Attempt :=
  let inv := Invocation.of option first? none
  match SpecialOption.named? inv.name with
  | none => []
  | some special => [.of inv (special.act engine inv s).1]

/-- The attempts of an option by its kind: first as a setting, then on the images there are. -/
def applyAttempts (kind : OptionKind) (option : String) (first? second? : Option String)
    (s : Session σ) : List Attempt :=
  match kind with
  | .special => s.specialAttempts engine option first?
  | .setting => s.settingAttempts engine option first?
  | .image => s.imageAttempts engine option first? second?
  | .list => s.listAttempts engine option first? second?
  | .settingAndImage =>
      s.settingAttempts engine option first? ++
        match s.applySetting engine option first? with
        | (some _, _) => []
        | (none, s) =>
            if s.images.isEmpty then [] else s.imageAttempts engine option first? second?

def stepAttempts (s : Session σ) : CommandStep → List Attempt
  | .read source => s.specialAttempts engine "read" (some source)
  | .apply entry option arguments =>
      s.applyAttempts engine entry.kind option arguments[0]? arguments[1]?
  | .unknown option => [⟨option, some .unrecognizedOption⟩]
  | .incomplete option => [⟨option, some .missingArgument⟩]

/-- The attempts of the steps up to the first that is fatal. -/
def allAttempts : List CommandStep → Session σ → List Attempt
  | [], _ => []
  | step :: rest, s =>
      s.stepAttempts engine step ++
        match s.perform engine step with
        | (some _, _) => []
        | (none, s) => allAttempts rest (s.catchIncidents false).2

/-- The attempt to close a bracket that was left open. -/
def finishAttempts (s : Session σ) : List Attempt :=
  if s.scopes.isEmpty then [] else [⟨endOfArguments, some .unbalanced⟩]

def runAttempts (tokens : List String) (s : Session σ) : List Attempt :=
  s.allAttempts engine (CommandStep.parse tokens) ++
    match s.performAll engine (CommandStep.parse tokens) with
    | (some _, _) => []
    | (none, s) => s.finishAttempts

/-- Everything that a call tries, in order. -/
def attempts (s : Session σ) : Call → List Attempt
  | .setting option first? => s.settingAttempts engine option first?
  | .image option first? second? => s.imageAttempts engine option first? second?
  | .list option first? second? => s.listAttempts engine option first? second?
  | .special option first? => s.specialAttempts engine option first?
  | .run tokens => s.runAttempts engine tokens

/-! ## What attempts are reported under -/

section

variable (option : String) (first? second? : Option String) (s : Session σ)

theorem option_of_mem_settingAttempts :
    ∀ a ∈ s.settingAttempts engine option first?, a.option = option := by
  unfold settingAttempts
  extract_lets inv
  split
  · simp
  · simp [inv, Invocation.of]

theorem option_of_mem_imageAttempts :
    ∀ a ∈ s.imageAttempts engine option first? second?, a.option = option := by
  unfold imageAttempts
  extract_lets inv
  split
  · simp
  · split
    · simp
    · simp [inv, Invocation.of]

theorem option_of_mem_listAttempts :
    ∀ a ∈ s.listAttempts engine option first? second?, a.option = option := by
  unfold listAttempts
  extract_lets inv
  split
  · simp
  · simp [inv, Invocation.of]

theorem option_of_mem_specialAttempts :
    ∀ a ∈ s.specialAttempts engine option first?, a.option = option := by
  unfold specialAttempts
  extract_lets inv
  split
  · simp
  · simp [inv, Invocation.of]

/-- Everything an option tries is reported under the option as written. -/
theorem option_of_mem_applyAttempts
    (kind : OptionKind) :
    ∀ a ∈ s.applyAttempts engine kind option first? second?, a.option = option := by
  cases kind with
  | special => exact option_of_mem_specialAttempts engine option first? s
  | setting => exact option_of_mem_settingAttempts engine option first? s
  | image => exact option_of_mem_imageAttempts engine option first? second? s
  | list => exact option_of_mem_listAttempts engine option first? second? s
  | settingAndImage =>
      intro a mem
      rcases List.mem_append.mp mem with set | work
      · exact option_of_mem_settingAttempts engine option first? s a set
      · split at work
        · cases work
        · split at work
          · cases work
          · exact option_of_mem_imageAttempts engine option first? second? _ a work

end

/-! ## How a call ends -/

theorem settle_fst
    (inv : Invocation)
    (acted : Acted σ Unit) :
    (settle inv acted).1 = (Attempt.of inv acted.1).fatal? := by
  rcases acted with ⟨_ | done, s⟩
  · simp [settle]
  · rfl

theorem Visit.fatal?_eq
    (inv : Invocation)
    (v : Visit σ) :
    v.fatal? inv = (Attempt.of inv v.outcome).fatal? := by
  cases outcome : v.outcome <;>
    simp [Visit.fatal?, Visit.fault?, Attempt.fatal?, Attempt.of, outcome]

theorem passOver_fst
    (operator : ImageOperator)
    (inv : Invocation)
    (handles : List Handle)
    (s : Session σ) :
    (s.passOver engine operator inv handles).1 =
      ((s.visits engine operator inv handles).map fun v => Attempt.of inv v.outcome).findSome?
        Attempt.fatal? := by
  induction handles generalizing s with
  | nil => rfl
  | cons h rest inductionHypothesis =>
      cases found : s.images.get? h with
      | none => rw [passOver_of_taken found, inductionHypothesis, visits, found]
      | some image =>
          rw [passOver_of_found found, visits, found]
          dsimp only
          cases stopped : (s.visit engine operator inv h image).fatal? inv with
          | some fatal => simp [← Visit.fatal?_eq, stopped]
          | none => simp [← Visit.fatal?_eq, stopped, inductionHypothesis]

theorem applySetting_fst
    (option : String)
    (first? : Option String)
    (s : Session σ) :
    (s.applySetting engine option first?).1 =
      (s.settingAttempts engine option first?).findSome? Attempt.fatal? := by
  rw [applySetting_eq, settingAttempts]
  extract_lets inv
  cases SettingOption.named? inv.name with
  | none => rfl
  | some setting => simp [settle_fst, inv]

theorem applyToImages_fst
    (option : String)
    (first? second? : Option String)
    (s : Session σ) :
    (s.applyToImages engine option first? second?).1 =
      (s.imageAttempts engine option first? second?).findSome? Attempt.fatal? := by
  rw [applyToImages, imageAttempts]
  cases ImageOperator.named? (Invocation.of option first? second?).name with
  | none => rfl
  | some operator =>
      dsimp only
      split
      · rfl
      · exact passOver_fst engine operator _ _ s

theorem applyToList_fst
    (option : String)
    (first? second? : Option String)
    (s : Session σ) :
    (s.applyToList engine option first? second?).1 =
      (s.listAttempts engine option first? second?).findSome? Attempt.fatal? := by
  rw [applyToList_eq, listAttempts]
  extract_lets inv
  cases ListOperator.named? inv.name with
  | none => rfl
  | some operator => simp [settle_fst, inv]

theorem applySpecial_fst
    (option : String)
    (first? : Option String)
    (s : Session σ) :
    (s.applySpecial engine option first?).1 =
      (s.specialAttempts engine option first?).findSome? Attempt.fatal? := by
  rw [applySpecial, specialAttempts]
  cases SpecialOption.named? (Invocation.of option first? none).name with
  | none => rfl
  | some special => simp [settle_fst]

theorem apply_fst
    (kind : OptionKind)
    (option : String)
    (first? second? : Option String)
    (s : Session σ) :
    (s.apply engine kind option first? second?).1 =
      (s.applyAttempts engine kind option first? second?).findSome? Attempt.fatal? := by
  cases kind with
  | special => exact applySpecial_fst engine option first? s
  | setting => exact applySetting_fst engine option first? s
  | image => exact applyToImages_fst engine option first? second? s
  | list => exact applyToList_fst engine option first? second? s
  | settingAndImage =>
      rw [apply, applyAttempts, List.findSome?_append, ← applySetting_fst]
      rcases s.applySetting engine option first? with ⟨_ | fatal, after⟩
      · dsimp only
        split
        · rfl
        · exact applyToImages_fst engine option first? second? after
      · rfl

theorem perform_fst
    (step : CommandStep)
    (s : Session σ) :
    (s.perform engine step).1 = (s.stepAttempts engine step).findSome? Attempt.fatal? := by
  cases step with
  | read source => exact apply_fst engine .special "read" (some source) none s
  | apply entry option arguments => exact apply_fst engine entry.kind option _ _ s
  | unknown option => rfl
  | incomplete option => rfl

theorem performAll_fst
    (steps : List CommandStep)
    (s : Session σ) :
    (s.performAll engine steps).1 = (s.allAttempts engine steps).findSome? Attempt.fatal? := by
  induction steps generalizing s with
  | nil => rfl
  | cons step rest inductionHypothesis =>
      rw [performAll, allAttempts, List.findSome?_append, ← perform_fst]
      rcases s.perform engine step with ⟨_ | fatal, after⟩
      · exact inductionHypothesis _
      · rfl

/-- A call ends with the first attempt that is fatal. -/
theorem call_fst
    (c : Call)
    (s : Session σ) :
    (s.call engine c).1 = (s.attempts engine c).findSome? Attempt.fatal? := by
  cases c with
  | setting option first? => exact apply_fst engine .setting option first? none s
  | image option first? second? => exact apply_fst engine .image option first? second? s
  | list option first? second? => exact apply_fst engine .list option first? second? s
  | special option first? => exact apply_fst engine .special option first? none s
  | run tokens =>
      rw [call, run, attempts, runAttempts, List.findSome?_append, ← performAll_fst]
      rcases s.performAll engine (CommandStep.parse tokens) with ⟨_ | fatal, after⟩
      · dsimp only [finishAttempts]
        split <;> rfl
      · rfl

end Session
end Darkroom
