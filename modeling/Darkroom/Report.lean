import Darkroom.Build
import Darkroom.Fault
import Darkroom.Text.Escaped

/-!
# Reports

Caught incidents for the user: a line each, or all of them as an array in JSON.
-/

namespace Darkroom
namespace Report

/-- A line for each incident. -/
def lines (incidents : List Incident) : List String :=
  incidents.map fun incident => Build.program ++ ": " ++ incident.text

/-- A member of an object, indented, with a string as its value. -/
def member (key value : String) : String :=
  "    " ++ Json.quote key ++ ": " ++ Json.quote value

/-- An incident as an object. -/
def object (incident : Incident) : String :=
  let members :=
    [ member "severity" incident.severity.name,
      member "message" incident.fault.message,
      member "option" incident.option ]
  "  \x7b\n" ++ ",\n".intercalate members ++ "\n  \x7d"

/-- The incidents as an array of objects; nothing stands between the brackets of an empty one. -/
def json (incidents : List Incident) : String :=
  if incidents.isEmpty then "[]"
  else "[\n" ++ ",\n".intercalate (incidents.map object) ++ "\n]"

end Report
end Darkroom
