/-!
# The stock configuration

A configuration file that writes every default out and explains it.
-/

namespace Darkroom
namespace Configuration

/-- The lines of the stock configuration. -/
def stockLines : List String :=
  [ "# Wand Configuration",
    "# ==================",
    "# All settings are optional. Remove or comment out any you don't need.",
    "# Values shown below are the defaults.",
    "# Unknown keys will cause an error.",
    "",
    "# ---------------------------------------------------------------------------",
    "# Settings applied before the first command-line option",
    "# ---------------------------------------------------------------------------",
    "[defaults]",
    "# Background color for reads of empty canvases, -extent, -rotate, ...",
    "background = \"#fff\"",
    "",
    "# Color of -border.",
    "bordercolor = \"#dfdfdf\"",
    "",
    "# Color of -frame.",
    "mattecolor = \"#bdbdbd\"",
    "",
    "# When true, ( and ) also save and restore settings, as \x7b and \x7d do.",
    "respect_parenthesis = false",
    "",
    "# ---------------------------------------------------------------------------",
    "# Resource limits",
    "# ---------------------------------------------------------------------------",
    "[resources]",
    "# Either \"unlimited\" or a size with an optional SI/IEC prefix",
    "# (\"512MB\", \"2GiB\"). The same values can be changed per run with -limit.",
    "memory = \"unlimited\"",
    "map = \"unlimited\"",
    "disk = \"unlimited\"",
    "",
    "# Worker threads for pixel operations. 0 uses every core; larger values are",
    "# clamped to the core count.",
    "threads = 0",
    "",
    "# ---------------------------------------------------------------------------",
    "# Logging",
    "# ---------------------------------------------------------------------------",
    "[log]",
    "# One of error, warn, info, debug, trace. RUST_LOG takes precedence.",
    "level = \"warn\"" ]

/-- The text of the stock configuration. -/
def stockText : String :=
  String.join (stockLines.map (· ++ "\n"))

end Configuration
end Darkroom
