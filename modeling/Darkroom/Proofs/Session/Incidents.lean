import Darkroom.Proofs.Session.Recast

/-!
# Incidents are accounted for

An incident is reported into the log, caught out of it, and handed over, and it keeps its place
among the others on the way.  What was handed over, what was caught and what is in the log are,
in this order, the reports of all attempts that were made.

Catching is put off when something fatal was reported, unless everything is wanted.
-/

namespace Darkroom

/-! ## The worst incident -/

@[simp] theorem Severity.worse_eq_fatal_iff
    {a b : Severity} :
    a.worse b = .fatal ↔ a = .fatal ∨ b = .fatal := by
  cases a <;> cases b <;> decide

namespace IncidentLog

variable {log : IncidentLog}

/-- Something fatal was reported. -/
def HasFatal (log : IncidentLog) : Prop :=
  ∃ i ∈ log.incidents, i.severity = .fatal

/-- A fold that becomes fatal with each fatal incident, and stays so. -/
theorem foldl_eq_fatal_iff
    {step : Option Severity → Incident → Option Severity}
    (each : ∀ worst? i, step worst? i = some .fatal ↔ worst? = some .fatal ∨ i.severity = .fatal)
    (incidents : List Incident)
    (worst? : Option Severity) :
    incidents.foldl step worst? = some .fatal ↔
      worst? = some .fatal ∨ ∃ i ∈ incidents, i.severity = .fatal := by
  induction incidents generalizing worst? with
  | nil => simp
  | cons i rest inductionHypothesis =>
      rw [List.foldl_cons, inductionHypothesis, each]
      simp [or_assoc]

theorem worst?_eq_fatal_iff :
    log.worst? = some .fatal ↔ log.HasFatal := by
  refine (foldl_eq_fatal_iff (fun worst? i => ?_) log.incidents none).trans ?_
  · cases worst? <;> simp
  · simp [HasFatal]

/-- Something fatal is reported by an attempt that came to a fatal fault. -/
theorem hasFatal_after_iff
    {attempts : List Attempt} :
    (log.after attempts).HasFatal ↔
      log.HasFatal ∨ ∃ a ∈ attempts, ∃ fault, a.fault? = some fault ∧ fault.isFatal := by
  simp [HasFatal, after, or_and_right, exists_or, Attempt.incident?, Fault.isFatal, and_assoc]

end IncidentLog

namespace Session

variable {σ : Type} (engine : Engine σ) (s : Session σ)

/-- What was reported and not handed over, in order. -/
def incidents : List Incident :=
  s.caught ++ s.log.incidents

/-- The reports of some attempts. -/
def reportsOf (attempts : List Attempt) : List Incident :=
  attempts.filterMap Attempt.incident?

@[simp] theorem reportsOf_nil : reportsOf [] = [] := rfl

@[simp] theorem reportsOf_append (first second : List Attempt) :
    reportsOf (first ++ second) = reportsOf first ++ reportsOf second :=
  List.filterMap_append

/-! ## Catching -/

theorem catchIncidents_fst_iff
    {all : Bool} :
    (s.catchIncidents all).1 = true ↔ s.log.HasFatal := by
  rw [← IncidentLog.worst?_eq_fatal_iff]
  unfold catchIncidents
  dsimp only
  split <;> simp

variable {s}

/-- Something fatal puts catching off. -/
theorem catchIncidents_of_hasFatal
    (hasFatal : s.log.HasFatal) :
    (s.catchIncidents false).2 = s := by
  have worst := IncidentLog.worst?_eq_fatal_iff.mpr hasFatal
  simp [catchIncidents, worst]

/-- Otherwise everything in the log is caught. -/
theorem catchIncidents_of_not_hasFatal
    {all : Bool}
    (caught : all = true ∨ ¬ s.log.HasFatal) :
    (s.catchIncidents all).2 = s.recast id {} s.incidents := by
  have worst : (s.log.worst? == some .fatal && !all) = false := by
    rw [← IncidentLog.worst?_eq_fatal_iff] at caught
    cases all
    · simpa using caught
    · simp
  unfold catchIncidents
  dsimp only
  rw [worst]
  rfl

variable (s)

/-- Catching loses nothing. -/
@[simp] theorem catchIncidents_incidents (all : Bool) :
    (s.catchIncidents all).2.incidents = s.incidents := by
  by_cases caught : all = true ∨ ¬ s.log.HasFatal
  · rw [catchIncidents_of_not_hasFatal caught]
    exact List.append_nil _
  · simp only [not_or, not_not, Bool.not_eq_true] at caught
    rw [caught.1, catchIncidents_of_hasFatal caught.2]

/-! ## Reports -/

theorem apply_incidents
    (kind : OptionKind)
    (option : String)
    (first? second? : Option String) :
    (s.apply engine kind option first? second?).2.incidents =
      s.incidents ++ reportsOf (s.applyAttempts engine kind option first? second?) := by
  rw [incidents, apply_log, apply_caught]
  exact (List.append_assoc ..).symm

theorem perform_incidents
    (step : CommandStep) :
    (s.perform engine step).2.incidents =
      s.incidents ++ reportsOf (s.stepAttempts engine step) := by
  rw [incidents, perform_log, perform_caught]
  exact (List.append_assoc ..).symm

theorem performAll_incidents
    (steps : List CommandStep) :
    (s.performAll engine steps).2.incidents =
      s.incidents ++ reportsOf (s.allAttempts engine steps) := by
  induction steps generalizing s with
  | nil => exact (List.append_nil _).symm
  | cons step rest inductionHypothesis =>
      have performed := perform_incidents engine s step
      rw [performAll, allAttempts]
      rcases ended : s.perform engine step with ⟨_ | fatal, after⟩ <;> rw [ended] at performed
      · simpa [performed] using inductionHypothesis (after.catchIncidents false).2
      · simpa using performed

theorem finish_incidents :
    s.finish.incidents = s.incidents ++ reportsOf s.finishAttempts := by
  unfold finish finishAttempts
  split
  · exact (List.append_nil _).symm
  · rw [catchIncidents_incidents]
    exact (List.append_assoc ..).symm

/-- A call reports the attempts that failed, and nothing else. -/
theorem call_incidents
    (c : Call) :
    (s.call engine c).2.incidents = s.incidents ++ reportsOf (s.attempts engine c) := by
  cases c with
  | setting option first? => exact apply_incidents engine s .setting option first? none
  | image option first? second? => exact apply_incidents engine s .image option first? second?
  | list option first? second? => exact apply_incidents engine s .list option first? second?
  | special option first? => exact apply_incidents engine s .special option first? none
  | run tokens =>
      have performed := performAll_incidents engine s (CommandStep.parse tokens)
      rw [call, run, attempts, runAttempts]
      rcases ended : s.performAll engine (CommandStep.parse tokens) with ⟨_ | fatal, after⟩ <;>
        rw [ended] at performed
      · simp [finish_incidents, performed]
      · simp [performed]

/-! ## Histories -/

/-- What can be done with a session from outside. -/
inductive Act where
  | call (c : Call)
  | apply (kind : OptionKind) (option : String) (first? second? : Option String)
  | collect (all : Bool)
  | handOver

/-- A session, and the incidents that came into it and went out of it so far. -/
structure Account (σ : Type) where
  /-- The session. -/
  session : Session σ
  /-- What was handed over. -/
  handed : List Incident
  /-- What was reported. -/
  reported : List Incident

namespace Account

/-- The account of a session with what it already holds. -/
def opened (s : Session σ) : Account σ where
  session := s
  handed := []
  reported := s.incidents

/-- The account after an act: the attempts that failed are reported, and what is taken is handed
over. -/
def act (a : Account σ) : Act → Account σ
  | .call c =>
      { a with
        session := (a.session.call engine c).2
        reported := a.reported ++ reportsOf (a.session.attempts engine c) }
  | .apply kind option first? second? =>
      { a with
        session := (a.session.apply engine kind option first? second?).2
        reported :=
          a.reported ++ reportsOf (a.session.applyAttempts engine kind option first? second?) }
  | .collect all => { a with session := (a.session.catchIncidents all).2 }
  | .handOver =>
      { a with
        session := a.session.takeIncidents.2
        handed := a.handed ++ a.session.takeIncidents.1 }

/-- The account after some acts. -/
def actAll (acts : List Act) (a : Account σ) : Account σ :=
  acts.foldl (act engine) a

/-- Whatever was reported was handed over or is still there, in the order of the reports. -/
def Balanced (a : Account σ) : Prop :=
  a.handed ++ a.session.incidents = a.reported

variable {a : Account σ}

theorem Balanced.opened : (Account.opened s).Balanced := rfl

theorem Balanced.act
    (balanced : a.Balanced)
    (next : Act) :
    (a.act engine next).Balanced := by
  have before : a.handed ++ a.session.incidents = a.reported := balanced
  unfold Balanced
  cases next with
  | call c =>
      rw [Account.act, call_incidents, ← List.append_assoc, before]
  | apply kind option first? second? =>
      rw [Account.act, apply_incidents, ← List.append_assoc, before]
  | collect all =>
      rw [Account.act, catchIncidents_incidents, before]
  | handOver =>
      rw [Account.act, ← before]
      exact List.append_assoc ..

theorem Balanced.actAll
    (balanced : a.Balanced)
    (acts : List Act) :
    (a.actAll engine acts).Balanced := by
  induction acts generalizing a with
  | nil => exact balanced
  | cons next rest inductionHypothesis => exact inductionHypothesis (balanced.act engine next)

end Account

/-- After any acts, what was handed over, what was caught and what is in the log are in order what
was reported.  Catching says whether something fatal is in the log; if so it changes nothing
unless all is wanted, and otherwise it leaves the log empty. -/
theorem incidents_accounted_for
    (acts : List Act) :
    let a := (Account.opened s).actAll engine acts
    a.handed ++ a.session.caught ++ a.session.log.incidents = a.reported ∧
      ∀ all,
        ((a.session.catchIncidents all).1 = true ↔
          ∃ i ∈ a.session.log.incidents, i.severity = .fatal) ∧
        (a.session.catchIncidents all).2 =
          if (a.session.catchIncidents all).1 && !all then a.session
          else
            { a.session with
              log := {}
              caught := a.session.caught ++ a.session.log.incidents } := by
  intro a
  refine ⟨?_, fun all => ⟨catchIncidents_fst_iff a.session, ?_⟩⟩
  · have balanced := Account.Balanced.actAll engine (.opened s) acts
    exact (List.append_assoc ..).trans balanced
  · split
    · next putOff =>
      simp only [Bool.and_eq_true, Bool.not_eq_true'] at putOff
      obtain ⟨fatal, rfl⟩ := putOff
      exact catchIncidents_of_hasFatal ((catchIncidents_fst_iff _).mp fatal)
    · next drained =>
      refine catchIncidents_of_not_hasFatal ?_
      by_cases wanted : all = true
      · exact .inl wanted
      · refine .inr fun hasFatal => drained ?_
        simp [(catchIncidents_fst_iff a.session).mpr hasFatal, wanted]

end Session
end Darkroom
