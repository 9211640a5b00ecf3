import Darkroom.Catalog
import Darkroom.Session.Apply
import Darkroom.Session.Special

/-!
# Running a command line

Words are taken from left to right.  An option takes its arguments, whatever they look like, and is
applied; any other word is read as an image.  After every step incidents are caught.  Only a fatal
one ends the run early.
-/

namespace Darkroom

/-- One step of a command line. -/
inductive CommandStep where
  /-- A source is read. -/
  | read (source : String)
  /-- An option of the catalogue is applied to its arguments. -/
  | apply (entry : CatalogEntry) (option : String) (arguments : List String)
  /-- A word that looks like an option is none. -/
  | unknown (option : String)
  /-- An option misses arguments, which ends the command line. -/
  | incomplete (option : String)
deriving DecidableEq, Repr

namespace CommandStep

/-- The steps of a command line. -/
def parse : List String → List CommandStep
  | [] => []
  | token :: rest =>
      if !Catalog.isOption token then .read token :: parse rest
      else match Catalog.find? token with
        | none => .unknown token :: parse rest
        | some entry =>
            let wanted := entry.argumentCount (Invocation.splitSign token).2
            if rest.length < wanted then [.incomplete token]
            else .apply entry token (rest.take wanted) :: parse (rest.drop wanted)
termination_by tokens => tokens.length
decreasing_by
  all_goals simp only [List.length_cons, List.length_drop]
  all_goals omega

end CommandStep

namespace Session

variable {σ : Type}

/-- An option is applied by its kind: first as a setting, then to the images there are. -/
def apply (engine : Engine σ) (kind : OptionKind) (option : String)
    (first? second? : Option String) (s : Session σ) : Option Fatal × Session σ :=
  match kind with
  | .special => s.applySpecial engine option first?
  | .setting => s.applySetting engine option first?
  | .image => s.applyToImages engine option first? second?
  | .list => s.applyToList engine option first? second?
  | .settingAndImage =>
      match s.applySetting engine option first? with
      | (some fatal, s) => (some fatal, s)
      | (none, s) =>
          if s.images.isEmpty then (none, s)
          else s.applyToImages engine option first? second?

/-- One step is done; incidents are not caught yet. -/
def perform (engine : Engine σ) (s : Session σ) : CommandStep → Option Fatal × Session σ
  | .read source => s.applySpecial engine "read" (some source)
  | .apply entry option arguments =>
      s.apply engine entry.kind option arguments[0]? arguments[1]?
  | .unknown option => (none, s.report .unrecognizedOption option)
  | .incomplete option => (none, s.report .missingArgument option)

/-- Steps are done in order up to a fatal incident; after each step incidents are caught. -/
def performAll (engine : Engine σ) : List CommandStep → Session σ → Option Fatal × Session σ
  | [], s => (none, s)
  | step :: rest, s =>
      match s.perform engine step with
      | (some fatal, s) => (some fatal, s)
      | (none, s) => performAll engine rest (s.catchIncidents false).2

/-- What a bracket that was never closed is reported under. -/
def endOfArguments : String := "(end of arguments)"

/-- A bracket that was never closed is reported and caught. -/
def finish (s : Session σ) : Session σ :=
  if s.scopes.isEmpty then s
  else ((s.report .unbalanced endOfArguments).catchIncidents false).2

/-- A command line is run. -/
def run (engine : Engine σ) (tokens : List String) (s : Session σ) :
    Option Fatal × Session σ :=
  match s.performAll engine (CommandStep.parse tokens) with
  | (some fatal, s) => (some fatal, s)
  | (none, s) => (none, s.finish)

end Session
end Darkroom
