import Darkroom.Fault

/-!
# The log of incidents

Incidents in the order they were reported, until they are drained.
-/

namespace Darkroom

/-- Incidents in report order. -/
structure IncidentLog where
  /-- What was reported and not drained. -/
  incidents : List Incident := []
deriving DecidableEq, Repr, Inhabited

namespace IncidentLog

/-- An incident at the end. -/
def add (log : IncidentLog) (incident : Incident) : IncidentLog :=
  ⟨log.incidents ++ [incident]⟩

/-- A fault reported with a given severity. -/
def reportAs (log : IncidentLog) (severity : Severity) (fault : Fault) (option : String) :
    IncidentLog :=
  log.add ⟨severity, fault, option⟩

/-- A fault reported with its own severity. -/
def report (log : IncidentLog) (fault : Fault) (option : String) : IncidentLog :=
  log.reportAs fault.severity fault option

/-- The number of incidents. -/
def length (log : IncidentLog) : Nat :=
  log.incidents.length

/-- Whether nothing was reported. -/
def isEmpty (log : IncidentLog) : Bool :=
  log.incidents.isEmpty

/-- The worst severity reported. -/
def worst? (log : IncidentLog) : Option Severity :=
  log.incidents.foldl
    (fun worst? incident =>
      match worst? with
      | some worst => some (worst.worse incident.severity)
      | none => some incident.severity)
    none

/-- Everything reported, and the empty log. -/
def drain (log : IncidentLog) : List Incident × IncidentLog :=
  (log.incidents, {})

end IncidentLog
end Darkroom
