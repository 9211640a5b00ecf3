import Darkroom.CommandLine.Basic

/-!
# The command line

Loads the texts that the words of a command line name, calls the program on them, and prints what it
answers.
-/

namespace Darkroom

/-- The paths that a word of a command line can name: itself, or what follows a mark. -/
def pathsIn (word : String) : List String :=
  [word, (word.dropPrefix "@").toString, (word.dropPrefix "--config=").toString]

/-- The texts of the files that can be read, by path. -/
def readTexts (paths : List String) : IO (List (String × String)) :=
  paths.filterMapM fun (path : String) => do
    try
      return some (path, ← IO.FS.readFile path)
    catch _ =>
      return none

end Darkroom

/-- Calls the program on the arguments and the files they name. -/
def main (arguments : List String) : IO UInt32 := do
  let paths := Darkroom.Configuration.fileName :: arguments.flatMap Darkroom.pathsIn
  let texts ← Darkroom.readTexts paths
  let result := Darkroom.CommandLine.call arguments (Darkroom.Disk.ofTexts texts)
  IO.print result.output
  IO.eprint result.errors
  return result.code
