import Darkroom.Disk
import Darkroom.Session.Apply
import Darkroom.Toml.Document

/-!
# Configuration

What a run starts from: colors, limits and the level of the log.  A configuration file is laid over
the defaults; it can hold no key that is not known, and no value that the options would refuse.
-/

namespace Darkroom

/-- The settings a run starts from. -/
structure Configuration where
  /-- The background color. -/
  background : String := "#fff"
  /-- The border color. -/
  borderColor : String := "#dfdfdf"
  /-- The color of frames. -/
  matteColor : String := "#bdbdbd"
  /-- Round brackets put the settings aside too. -/
  respectsBrackets : Bool := false
  /-- The limit on memory. -/
  memory : String := "unlimited"
  /-- The limit on mapped memory. -/
  map : String := "unlimited"
  /-- The limit on disk space. -/
  disk : String := "unlimited"
  /-- How many threads work; zero stands for one on each core. -/
  threads : Nat := 0
  /-- The level of the log. -/
  logLevel : String := "warn"
deriving DecidableEq, Repr, Inhabited

/-- Why there is no configuration. -/
inductive ConfigurationError where
  /-- The file cannot be read. -/
  | unreadable (fault : DiskFault)
  /-- The text is no document, or its keys or types are not those of a configuration. -/
  | malformed
  /-- A text for a color names none. -/
  | invalidColor (key value : String)
  /-- A text for a limit names none. -/
  | invalidLimit (resource : Resource) (value : String)
  /-- The level of the log is none of those known. -/
  | invalidLogLevel
deriving DecidableEq, Repr

namespace Configuration

/-- The levels of the log. -/
def logLevels : List String := ["error", "warn", "info", "debug", "trace"]

/-- The colors by the key each is read from. -/
def colors (c : Configuration) : List (String × String) :=
  [ ("defaults.background", c.background), ("defaults.bordercolor", c.borderColor),
    ("defaults.mattecolor", c.matteColor) ]

/-- The limits by resource. -/
def limits (c : Configuration) : List (Resource × String) :=
  [(.memory, c.memory), (.map, c.map), (.disk, c.disk)]

end Configuration

namespace ConfigurationError

/-- The wording of an invalid value. -/
def reason : ConfigurationError → String
  | unreadable fault => fault.message
  | malformed => ""
  | invalidColor key value => key ++ ": unrecognized color `" ++ value ++ "`"
  | invalidLimit resource value =>
      "resources." ++ lowered (Keyword.name resource) ++
        ": expected a size or \"unlimited\", got `" ++ value ++ "`"
  | invalidLogLevel => "log.level must be one of " ++ ", ".intercalate Configuration.logLevels

end ConfigurationError

namespace Configuration

/-- A configuration as a document. -/
def toToml (c : Configuration) : Toml :=
  .table
    [ ("defaults", .table
        [ ("background", .string c.background), ("bordercolor", .string c.borderColor),
          ("mattecolor", .string c.matteColor),
          ("respect_parenthesis", .boolean c.respectsBrackets) ]),
      ("resources", .table
        [ ("memory", .string c.memory), ("map", .string c.map), ("disk", .string c.disk),
          ("threads", .integer c.threads) ]),
      ("log", .table [("level", .string c.logLevel)]) ]

/-- The values of a section by key.  A section is a table without unknown keys, or an array of
values in the order of the keys. -/
def section? (keys : List String) : Toml → Option (List (String × Toml))
  | .table entries =>
      if entries.all fun (key, _) => keys.contains key then some entries else none
  | .array items => if items.length ≤ keys.length then some (keys.zip items) else none
  | _ => none

/-- The value of a key as `read` takes it; the default without the key. -/
def field {α : Type} (entries : List (String × Toml)) (key : String) (standard : α)
    (read : Toml → Option α) : Option α :=
  match entries.lookup key with
  | none => some standard
  | some value => read value

/-- A text. -/
def text? : Toml → Option String
  | .string text => some text
  | _ => none

/-- A truth value. -/
def truth? : Toml → Option Bool
  | .boolean value => some value
  | _ => none

/-- A whole number that is not negative. -/
def count? : Toml → Option Nat
  | .integer value => if 0 ≤ value then some value.toNat else none
  | _ => none

/-- The configuration a document describes; what it leaves out keeps the default. -/
def ofToml? (document : Toml) : Option Configuration := do
  let standard : Configuration := {}
  let sections ← section? ["defaults", "resources", "log"] document
  let entriesOf (name : String) (keys : List String) : Option (List (String × Toml)) :=
    field sections name [] (section? keys)
  let defaults ← entriesOf "defaults"
    ["background", "bordercolor", "mattecolor", "respect_parenthesis"]
  let resources ← entriesOf "resources" ["memory", "map", "disk", "threads"]
  let log ← entriesOf "log" ["level"]
  some {
    background := ← field defaults "background" standard.background text?
    borderColor := ← field defaults "bordercolor" standard.borderColor text?
    matteColor := ← field defaults "mattecolor" standard.matteColor text?
    respectsBrackets := ← field defaults "respect_parenthesis" standard.respectsBrackets truth?
    memory := ← field resources "memory" standard.memory text?
    map := ← field resources "map" standard.map text?
    disk := ← field resources "disk" standard.disk text?
    threads := ← field resources "threads" standard.threads count?
    logLevel := ← field log "level" standard.logLevel text? }

/-- Everything that a configuration names exists: colors first, then limits, then the level of the
log. -/
def validate (c : Configuration) : Except ConfigurationError Unit := do
  for (key, value) in c.colors do
    if (Color.parse value).toOption.isNone then throw (.invalidColor key value)
  for (resource, value) in c.limits do
    if (Limit.parse? value).isNone then throw (.invalidLimit resource value)
  if logLevels.contains (lowered c.logLevel) then pure () else throw .invalidLogLevel

/-- The configuration of an overlay laid over a base. -/
def resolve (base : Toml) (overlay? : Option Toml) : Except ConfigurationError Configuration :=
  match ofToml? (base.mergeOption overlay?) with
  | none => .error .malformed
  | some c => c.validate.map fun () => c

/-- The defaults as a document. -/
def standardToml : Toml :=
  toToml {}

/-- The configuration of a text. -/
def parse (text : String) : Except ConfigurationError Configuration :=
  match Toml.parse? text with
  | none => .error .malformed
  | some overlay => resolve standardToml (some overlay)

/-- The name of the file that is looked for in a directory. -/
def fileName : String := "wand.toml"

/-- The configuration of a file; the defaults without the file. -/
def loadFile (disk : Disk) (path : String) : Except ConfigurationError Configuration :=
  if !disk.contains path then resolve standardToml none
  else match disk.readText path with
    | .error fault => .error (.unreadable fault)
    | .ok text => parse text

/-- The configuration of a directory. -/
def load (disk : Disk) (directory : String) : Except ConfigurationError Configuration :=
  loadFile disk (String.ofList (Path.child directory.toList fileName.toList))

/-- How many threads work on a machine with a number of cores: never more than cores. -/
def effectiveThreads (c : Configuration) (cores : Nat) : Nat :=
  if c.threads = 0 then cores else min c.threads cores

/-- The settings that a configuration makes, as options with their arguments. -/
def options (c : Configuration) : List (String × Option String) :=
  [ ("-background", some c.background), ("-bordercolor", some c.borderColor),
    ("-mattecolor", some c.matteColor) ] ++
    if c.respectsBrackets then [("-respect-parenthesis", none)] else []

/-- The limits with those of a configuration. -/
def install (c : Configuration) (limits : Limits) : Limits :=
  c.limits.foldl (fun limits (resource, text) =>
    match Limit.parse? text with
    | some limit => limits.set resource limit
    | none => limits) limits

end Configuration

namespace Session

variable {σ : Type}

/-- Settings are applied in order up to the first fatal fault. -/
def applySettings (engine : Engine σ) :
    List (String × Option String) → Session σ → Option Fatal × Session σ
  | [], s => (none, s)
  | (option, argument?) :: rest, s =>
      match s.applySetting engine option argument? with
      | (some fatal, s) => (some fatal, s)
      | (none, s) => applySettings engine rest s

/-- A configuration is applied: its settings as options, then its limits. -/
def configure (engine : Engine σ) (c : Configuration) (s : Session σ) :
    Option Fatal × Session σ :=
  match s.applySettings engine c.options with
  | (some fatal, s) => (some fatal, s)
  | (none, s) => (none, { s with limits := c.install s.limits })

end Session
end Darkroom
