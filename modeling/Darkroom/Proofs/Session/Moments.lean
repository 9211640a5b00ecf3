import Darkroom.Proofs.Session.Enclosing

/-!
# The moments of calls

A command line applies many options, and each finds the session that the ones before it left.  The
moments of some calls are the single options they apply, each with the session it finds.  Between
two moments incidents are at most reported and caught, so what every moment keeps holds at all
moments.
-/

namespace Darkroom
namespace Session

variable {σ : Type} (engine : Engine σ)

/-- An option that is applied, and the session it finds. -/
structure Moment (σ : Type) where
  /-- The session before. -/
  before : Session σ
  /-- The option with its arguments, as a call of its own. -/
  call : Call
  /-- It is one option. -/
  single : call.AppliesOption

/-- The moments of an option by its kind. -/
def applyMoments (kind : OptionKind) (option : String) (first? second? : Option String)
    (s : Session σ) : List (Moment σ) :=
  match kind with
  | .special => [⟨s, .special option first?, trivial⟩]
  | .setting => [⟨s, .setting option first?, trivial⟩]
  | .image => [⟨s, .image option first? second?, trivial⟩]
  | .list => [⟨s, .list option first? second?, trivial⟩]
  | .settingAndImage =>
      ⟨s, .setting option first?, trivial⟩ ::
        match s.applySetting engine option first? with
        | (some _, _) => []
        | (none, s) =>
            if s.images.isEmpty then [] else [⟨s, .image option first? second?, trivial⟩]

/-- The moments of one step. -/
def stepMoments (s : Session σ) : CommandStep → List (Moment σ)
  | .read source => [⟨s, .special "read" (some source), trivial⟩]
  | .apply entry option arguments =>
      s.applyMoments engine entry.kind option arguments[0]? arguments[1]?
  | .unknown _ => []
  | .incomplete _ => []

/-- The moments of the steps up to a fatal incident. -/
def allMoments : List CommandStep → Session σ → List (Moment σ)
  | [], _ => []
  | step :: rest, s =>
      s.stepMoments engine step ++
        match s.perform engine step with
        | (some _, _) => []
        | (none, s) => allMoments rest (s.catchIncidents false).2

/-- The moments of a call. -/
def moments (s : Session σ) : Call → List (Moment σ)
  | .setting option first? => [⟨s, .setting option first?, trivial⟩]
  | .image option first? second? => [⟨s, .image option first? second?, trivial⟩]
  | .list option first? second? => [⟨s, .list option first? second?, trivial⟩]
  | .special option first? => [⟨s, .special option first?, trivial⟩]
  | .run tokens => s.allMoments engine (CommandStep.parse tokens)

/-- The moments of some calls. -/
def momentsAll : List Call → Session σ → List (Moment σ)
  | [], _ => []
  | c :: rest, s => s.moments engine c ++ momentsAll rest (s.call engine c).2

/-! ## The chain of moments -/

/-- Two sessions that differ in nothing but what was reported and caught. -/
def SameButReports (s s' : Session σ) : Prop :=
  ∃ log caught, s' = { s with log, caught }

namespace SameButReports

variable {s s' s'' : Session σ}

theorem refl
    (s : Session σ) :
    s.SameButReports s :=
  ⟨s.log, s.caught, rfl⟩

theorem trans
    (first : s.SameButReports s')
    (second : s'.SameButReports s'') :
    s.SameButReports s'' := by
  obtain ⟨_, _, rfl⟩ := first
  obtain ⟨log, caught, rfl⟩ := second
  exact ⟨log, caught, rfl⟩

theorem report
    (s : Session σ)
    (fault : Fault)
    (option : String) :
    s.SameButReports (s.report fault option) :=
  ⟨_, s.caught, rfl⟩

theorem catchIncidents
    (s : Session σ)
    (all : Bool) :
    s.SameButReports (s.catchIncidents all).2 := by
  unfold Session.catchIncidents
  dsimp only
  split
  · exact refl s
  · exact ⟨_, _, rfl⟩

theorem finish
    (s : Session σ) :
    s.SameButReports s.finish := by
  unfold Session.finish
  split
  · exact refl s
  · exact (report s _ _).trans (catchIncidents _ false)

end SameButReports

/-- Each moment finds the session that the one before it left, but for what was reported and
caught. -/
def Linked : Session σ → List (Moment σ) → Session σ → Prop
  | s, [], s' => s.SameButReports s'
  | s, m :: rest, s' => s.SameButReports m.before ∧ Linked (m.before.call engine m.call).2 rest s'

section

variable {engine} {s s' s'' : Session σ}

namespace Linked

variable {moments more : List (Moment σ)}

theorem after_same
    (same : s.SameButReports s')
    (linked : s'.Linked engine moments s'') :
    s.Linked engine moments s'' := by
  cases moments with
  | nil => exact same.trans linked
  | cons m rest => exact ⟨same.trans linked.1, linked.2⟩

theorem append
    (first : s.Linked engine moments s')
    (second : s'.Linked engine more s'') :
    s.Linked engine (moments ++ more) s'' := by
  induction moments generalizing s with
  | nil => exact second.after_same first
  | cons m rest inductionHypothesis => exact ⟨first.1, inductionHypothesis first.2⟩

theorem before_same
    (linked : s.Linked engine moments s')
    (same : s'.SameButReports s'') :
    s.Linked engine moments s'' := by
  have last : s'.Linked engine [] s'' := same
  simpa using linked.append last

/-- The moments before a moment lead up to the session it finds. -/
theorem upTo
    {m : Moment σ}
    (linked : s.Linked engine (moments ++ m :: more) s') :
    s.Linked engine moments m.before := by
  induction moments generalizing s with
  | nil => exact linked.1
  | cons first rest inductionHypothesis => exact ⟨linked.1, inductionHypothesis linked.2⟩

theorem single
    (s : Session σ)
    {c : Call}
    {one : c.AppliesOption} :
    s.Linked engine [⟨s, c, one⟩] (s.call engine c).2 :=
  ⟨.refl s, .refl _⟩

end Linked

theorem applyMoments_linked
    (kind : OptionKind)
    (option : String)
    (first? second? : Option String)
    (s : Session σ) :
    s.Linked engine (s.applyMoments engine kind option first? second?)
      (s.apply engine kind option first? second?).2 := by
  cases kind with
  | settingAndImage =>
      unfold applyMoments Session.apply
      dsimp only
      have set : s.Linked engine [⟨s, .setting option first?, trivial⟩]
          (s.applySetting engine option first?).2 := .single s
      generalize s.applySetting engine option first? = applied at set ⊢
      obtain ⟨_ | fatal, after⟩ := applied
      · dsimp only
        split
        · exact set
        · exact set.append (.single after)
      · exact set
  | _ => exact .single s

theorem stepMoments_linked
    (step : CommandStep)
    (s : Session σ) :
    s.Linked engine (s.stepMoments engine step) (s.perform engine step).2 := by
  cases step with
  | read source => exact .single s
  | apply entry option arguments => exact applyMoments_linked _ _ _ _ s
  | unknown option => exact .report s _ _
  | incomplete option => exact .report s _ _

theorem allMoments_linked
    (steps : List CommandStep)
    (s : Session σ) :
    s.Linked engine (s.allMoments engine steps) (s.performAll engine steps).2 := by
  induction steps generalizing s with
  | nil => exact .refl s
  | cons step rest inductionHypothesis =>
      have first : s.Linked engine (s.stepMoments engine step) (s.perform engine step).2 :=
        stepMoments_linked step s
      rw [allMoments, performAll]
      generalize s.perform engine step = performed at first ⊢
      obtain ⟨_ | fatal, after⟩ := performed
      · exact first.append ((inductionHypothesis _).after_same (.catchIncidents after false))
      · simpa using first

theorem moments_linked
    (c : Call)
    (s : Session σ) :
    s.Linked engine (s.moments engine c) (s.call engine c).2 := by
  cases c with
  | run tokens =>
      have all : s.Linked engine (s.allMoments engine (CommandStep.parse tokens))
          (s.performAll engine (CommandStep.parse tokens)).2 :=
        allMoments_linked (CommandStep.parse tokens) s
      rw [moments, Session.call, Session.run]
      generalize s.performAll engine (CommandStep.parse tokens) = performed at all ⊢
      obtain ⟨_ | fatal, ended⟩ := performed
      · exact all.before_same (.finish ended)
      · exact all
  | _ => exact .single s

/-- The moments of some calls lead from the session before them to the one after them. -/
theorem momentsAll_linked
    (calls : List Call)
    (s : Session σ) :
    s.Linked engine (s.momentsAll engine calls) (s.callAll engine calls) := by
  induction calls generalizing s with
  | nil => exact .refl s
  | cons c rest inductionHypothesis => exact (moments_linked c s).append (inductionHypothesis _)

end

/-! ## What every moment keeps -/

section

variable {engine} {property : Session σ → Prop} {s : Session σ}

/-- What holds at all moments and after them. -/
structure Throughout (property : Session σ → Prop) (moments : List (Moment σ))
    (after : Session σ) : Prop where
  /-- It holds at every moment. -/
  before : ∀ m ∈ moments, property m.before
  /-- It holds in the end. -/
  after : property after

/-- The property does not depend on what was reported and caught, and it is kept at each of some
moments. -/
structure KeptAt (engine : Engine σ) (property : Session σ → Prop) (moments : List (Moment σ)) :
    Prop where
  /-- Reporting and catching do not matter. -/
  quiet : ∀ s log caught, property s → property { s with log, caught }
  /-- It is kept at every moment. -/
  step : ∀ m ∈ moments, property m.before → property (m.before.call engine m.call).2

namespace KeptAt

theorem linked
    {moments : List (Moment σ)}
    {s' : Session σ}
    (kept : KeptAt engine property moments)
    (linked : s.Linked engine moments s')
    (holds : property s) :
    Throughout property moments s' := by
  induction moments generalizing s with
  | nil =>
      obtain ⟨log, caught, rfl⟩ : s.SameButReports s' := linked
      exact ⟨fun m mem => absurd mem List.not_mem_nil, kept.quiet s log caught holds⟩
  | cons m rest inductionHypothesis =>
      obtain ⟨⟨log, caught, before⟩, linked⟩ := linked
      have holds : property m.before := before ▸ kept.quiet s log caught holds
      have later := inductionHypothesis
        ⟨kept.quiet, fun m' mem => kept.step m' (List.mem_cons_of_mem m mem)⟩ linked
        (kept.step m List.mem_cons_self holds)
      exact ⟨List.forall_mem_cons.mpr ⟨holds, later.before⟩, later.after⟩

/-- What every moment keeps holds at all moments. -/
theorem callAll
    {calls : List Call}
    (kept : KeptAt engine property (s.momentsAll engine calls))
    (holds : property s) :
    Throughout property (s.momentsAll engine calls) (s.callAll engine calls) :=
  kept.linked (momentsAll_linked calls s) holds

end KeptAt
end
end Session
end Darkroom
