/-!
# The build

What the program calls itself.
-/

namespace Darkroom
namespace Build

/-- The name of the program, which starts every report. -/
def program : String := "wand"

/-- The name of the package. -/
def package : String := "wand-cli"

/-- The version. -/
def version : String := "0.4.0"

/-- The identity of the sources, empty when unknown. -/
def revision : String := ""

/-- How the program was built. -/
def profile : String := "debug"

/-- The number of threads that work on pixels. -/
def threads : Nat := 2

end Build
end Darkroom
