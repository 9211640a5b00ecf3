import Darkroom.Build
import Darkroom.Color.Parser
import Darkroom.Engine.Basic
import Darkroom.Keyword.Family
import Darkroom.Limits
import Darkroom.Nesting

/-!
# Listings

The texts that list keywords, formats, colors, limits and the build.
-/

namespace Darkroom
namespace Listing

/-- A text filled up with blanks on the right. -/
def padRight (width : Nat) (s : String) : String :=
  s.pushn ' ' (width - s.length)

/-- A text filled up with blanks on the left. -/
def padLeft (width : Nat) (s : String) : String :=
  ("".pushn ' ' (width - s.length)) ++ s

/-- Lines as one text. -/
def lines (items : List String) : String :=
  String.join (items.map (· ++ "\n"))

/-- The line under headings. -/
def rule : String :=
  "".pushn '-' 73

/-- A word with its first letter in upper case. -/
def capitalize (word : String) : String :=
  match word.toList with
  | [] => ""
  | c :: rest => String.ofList (c.toUpper :: rest)

/-- Neighbors that differ only in case reduced to the first of them. -/
def dropRepeats : List String → List String
  | a :: b :: rest => if sameWord a b then dropRepeats (a :: rest) else a :: dropRepeats (b :: rest)
  | short => short
termination_by names => names.length

/-- Everything that can be listed, in alphabetical order. -/
def listNames : List String :=
  let names :=
    Keyword.names Topic ++ Keyword.families.map fun (name, _) => capitalize name
  dropRepeats (names.mergeSort fun a b => lowered a ≤ lowered b)

/-- The formats with what can be done with them. -/
def formatLines (formats : List FormatEntry) : List String :=
  let mode (on : Bool) (letter : String) : String := if on then letter else "-"
  "   Format  Mode  Description" :: rule ::
    formats.map fun f =>
      padLeft 9 f.name ++ "  " ++ mode f.readable "r" ++ mode f.writable "w" ++ "-   " ++
        f.description

/-- The named colors with their values. -/
def colorLines : List String :=
  let value (v : UInt8) : String := toString v.toNat
  (padRight 20 "Name" ++ " Color") :: rule ::
    Color.names.map fun (name, c) =>
      padRight 20 name ++ " srgb(" ++ value c.red ++ "," ++ value c.green ++ "," ++
        value c.blue ++ ")"

/-- The build and its fixed limits. -/
def configurationLines : List String :=
  [ ("NAME", Build.package), ("VERSION", Build.version), ("GIT-HASH", Build.revision),
    ("BUILD", Build.profile), ("QUANTUM-DEPTH", "8"),
    ("STACK-DEPTH", toString (Nesting.standardLimit)),
    ("THREADS", toString Build.threads) ].map fun (key, value) => padRight 14 key ++ " " ++ value

/-- The limits on resources. -/
def limitLines (limits : Limits) : List String :=
  limits.toList.map fun (resource, limit) =>
    padLeft 10 (Keyword.name resource) ++ ": " ++ limit.text

/-- The lines of a topic. -/
def topicLines (formats : List FormatEntry) (fonts : List String) (limits : Limits) :
    Topic → List String
  | .list => listNames
  | .coder | .format => formatLines formats
  | .color => colorLines
  | .configure => configurationLines
  | .font => fonts
  | .resource => limitLines limits

/-- The listing of a topic or of a keyword family. -/
def text (formats : List FormatEntry) (fonts : List String) (limits : Limits) (topic : String) :
    Except Fault String :=
  match (Keyword.parse topic : Except KeywordError Topic), Keyword.table? topic with
  | .ok topic, _ => .ok (lines (topicLines formats fonts limits topic))
  | .error _, some names => .ok (lines names)
  | .error e, none => .error e.toFault

end Listing
end Darkroom
