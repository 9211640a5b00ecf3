/-!
# Faults and incidents

A fault is the cause of a problem; an incident is a fault as it was reported, with its severity and
the option that raised it.  Only the exhaustion of a resource is fatal: every other fault is
recorded and the run goes on.
-/

namespace Darkroom

/-- How bad an incident is, from mild to worst. -/
inductive Severity where
  /-- Worth a look. -/
  | warning
  /-- The option had no effect. -/
  | error
  /-- The run stops. -/
  | fatal
deriving DecidableEq, Repr

namespace Severity

/-- Position in the order of severities. -/
def rank : Severity → Nat
  | .warning => 0
  | .error => 1
  | .fatal => 2

/-- The word reports use. -/
def name : Severity → String
  | .warning => "warning"
  | .error => "error"
  | .fatal => "fatal"

/-- The worse of two severities. -/
def worse (a b : Severity) : Severity :=
  if a.rank < b.rank then b else a

end Severity

/-- The causes of a problem. -/
inductive Fault where
  /-- An opening bracket beyond the depth limit. -/
  | nestedTooDeeply
  /-- A closing bracket without its opening one, or the reverse. -/
  | unbalanced
  /-- No enclosing list to copy from. -/
  | uncloneable
  /-- An index outside the list. -/
  | noSuchImage (index : String)
  /-- An operator on an empty list. -/
  | noImages
  /-- An argument that does not parse. -/
  | invalidArgument (text : String)
  /-- An argument that is not there. -/
  | missingArgument
  /-- A name that is in no catalogue. -/
  | unrecognizedOption
  /-- A geometry that does not parse or misses the image. -/
  | invalidGeometry (text : String)
  /-- A color that does not parse. -/
  | unrecognizedColor (text : String)
  /-- A word that its keyword family does not know. -/
  | unrecognizedKeyword (family value : String)
  /-- Two sequences without the null image between them. -/
  | missingSeparator
  /-- Fewer images than the operator takes. -/
  | missingOperand
  /-- A file that cannot be read. -/
  | unreadable (path reason : String)
  /-- A file that cannot be written. -/
  | unwritable (path reason : String)
  /-- The pixel engine refused. -/
  | engine (reason : String)
  /-- A resource ran out. -/
  | exhausted (resource : String)
deriving DecidableEq, Repr

namespace Fault

/-- The wording of a fault. -/
def message : Fault → String
  | .nestedTooDeeply => "parenthesis nested too deeply"
  | .unbalanced => "unbalanced parenthesis"
  | .uncloneable => "unable to clone image"
  | .noSuchImage index => "no such image `" ++ index ++ "`"
  | .noImages => "no images defined"
  | .invalidArgument text => "invalid argument `" ++ text ++ "`"
  | .missingArgument => "missing argument"
  | .unrecognizedOption => "unrecognized option"
  | .invalidGeometry text => "invalid geometry `" ++ text ++ "`"
  | .unrecognizedColor text => "unrecognized color `" ++ text ++ "`"
  | .unrecognizedKeyword family value => "unrecognized " ++ family ++ " type `" ++ value ++ "`"
  | .missingSeparator => "missing null image separator"
  | .missingOperand => "second image operand missing"
  | .unreadable path reason => "unable to read image `" ++ path ++ "`: " ++ reason
  | .unwritable path reason => "unable to write image `" ++ path ++ "`: " ++ reason
  | .engine reason => reason
  | .exhausted resource => "resource exhausted: " ++ resource

/-- The severity a fault is reported with. -/
def severity : Fault → Severity
  | .exhausted _ => .fatal
  | _ => .error

/-- A fault that stops the run. -/
def isFatal (fault : Fault) : Bool :=
  fault.severity = .fatal

@[simp] theorem isFatal_exhausted (resource : String) : (exhausted resource).isFatal = true :=
  rfl

end Fault

/-- A fault as it was reported. -/
structure Incident where
  /-- How bad it was. -/
  severity : Severity
  /-- What it was. -/
  fault : Fault
  /-- The option as written. -/
  option : String
deriving DecidableEq, Repr

/-- Severity, message and option on one line. -/
def Incident.text (i : Incident) : String :=
  i.severity.name ++ ": " ++ i.fault.message ++ " `" ++ i.option ++ "'"

/-- The one failure that stops a run: a fatal fault and the option that met it. -/
structure Fatal where
  /-- The fatal fault. -/
  fault : Fault
  /-- The option as written. -/
  option : String
deriving DecidableEq, Repr

/-- The wording of a fatal failure. -/
def Fatal.message (f : Fatal) : String :=
  "fatal: " ++ f.fault.message ++ " `" ++ f.option ++ "'"

end Darkroom
