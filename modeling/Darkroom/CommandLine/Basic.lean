import Darkroom.CommandLine.Arguments
import Darkroom.Configuration
import Darkroom.Configuration.Stock
import Darkroom.Engine.Standard
import Darkroom.Report
import Darkroom.Session.Run
import Darkroom.Text.Escaped

/-!
# The program

From arguments and a disk to the texts that are printed and the code of exit.  The configuration is
loaded before anything else; incidents are reported after the run, and an error among them makes
the run a failure.
-/

namespace Darkroom
namespace CommandLine

/-- What a call of the program leaves behind. -/
structure Result where
  /-- The code of exit; zero stands for success. -/
  code : UInt32 := 0
  /-- What was printed. -/
  output : String := ""
  /-- What was reported. -/
  errors : String := ""
  /-- The files after the call. -/
  disk : Disk := {}

/-- A text as a line of its own. -/
def line (text : String) : String :=
  text ++ "\n"

/-- A failure before or after the run. -/
def failure (detail : String) : String :=
  line ("Error: " ++ detail)

/-- A fault of the disk in detail. -/
def detailOfFault (fault : DiskFault) : String :=
  let fields (rest : String) : String :=
    rest ++ "kind: " ++ fault.kind ++ ", message: " ++ Escaped.quote fault.reason ++ " \x7d"
  match fault.code? with
  | some code => fields ("Os \x7b code: " ++ toString code ++ ", ")
  | none => fields "Error \x7b "

/-- An error of the configuration in detail. -/
def detailOfError : ConfigurationError → String
  | .unreadable fault => "Io(" ++ detailOfFault fault ++ ")"
  | .malformed => "Toml"
  | e => "Validation(" ++ Escaped.quote e.reason ++ ")"

/-- The report of incidents. -/
def report (json : Bool) (incidents : List Incident) : String :=
  if json then line (Report.json incidents)
  else String.join ((Report.lines incidents).map line)

/-- A run of options and file names. -/
def runTokens (c : Configuration) (json : Bool) (tokens : List String) (disk : Disk) : Result :=
  let engine := Engine.standard
  let s : Session Disk := { world := disk }
  let (fatal?, s) := match s.configure engine c with
    | (none, s) => s.run engine tokens
    | stopped => stopped
  let (incidents, s) := (s.catchIncidents true).2.takeIncidents
  let failed := incidents.any fun incident => Severity.error.rank ≤ incident.severity.rank
  { code := if fatal?.isSome || failed then 1 else 0
    output := String.join s.printed
    errors := report json incidents ++ match fatal? with
      | some fatal => failure fatal.message
      | none => ""
    disk := s.world }

/-- A command under options. -/
def runCommand (options : Options) (command : Command) (disk : Disk) : Result :=
  let loaded := match options.configuration? with
    | some path => Configuration.loadFile disk path
    | none => Configuration.load disk "."
  match loaded, command with
  | .error e, _ => { code := 1, errors := failure (detailOfError e), disk }
  | .ok _, .stockConfiguration => { output := Configuration.stockText, disk }
  | .ok c, .run tokens => runTokens c options.json tokens disk

/-- The usage of the program. -/
def usage : String :=
  line ("Usage: " ++ Build.program ++ " [--config FILE] [--json] (run [WORD]... | gen-config)")

/-- A call of the program. -/
def call (arguments : List String) (disk : Disk) : Result :=
  match parse {} arguments with
  | .error e => { code := 2, errors := line e.message ++ usage, disk }
  | .ok .version => { output := line (Build.program ++ " " ++ Build.version), disk }
  | .ok .help => { output := usage, disk }
  | .ok (.command options command) => runCommand options command disk

end CommandLine
end Darkroom
