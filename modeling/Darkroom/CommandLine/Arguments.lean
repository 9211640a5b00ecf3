/-!
# Command-line arguments

A command with options in front of it or right behind it.  What follows the command `run` from the
first word on that is none of these options belongs to the run, whatever it looks like.
-/

namespace Darkroom
namespace CommandLine

/-- What the program is to do. -/
inductive Command where
  /-- To run options and file names. -/
  | run (tokens : List String)
  /-- To print the stock configuration. -/
  | stockConfiguration
deriving DecidableEq, Repr

/-- The options that every command takes. -/
structure Options where
  /-- The configuration file. -/
  configuration? : Option String := none
  /-- Incidents are reported in JSON. -/
  json : Bool := false
deriving DecidableEq, Repr

namespace Options

/-- The options around a command: the ones behind it win. -/
def override (outer inner : Options) : Options where
  configuration? := inner.configuration? <|> outer.configuration?
  json := inner.json || outer.json

end Options

/-- What a command line asks for. -/
inductive Request where
  /-- A command under options. -/
  | command (options : Options) (command : Command)
  /-- The version. -/
  | version
  /-- The usage. -/
  | help
deriving DecidableEq, Repr

/-- Why a command line cannot be followed. -/
inductive UsageError where
  /-- There is no command. -/
  | noCommand
  /-- A word is neither an option nor a command. -/
  | unexpected (word : String)
  /-- An option misses its value. -/
  | noValue (option : String)
  /-- An option stands twice. -/
  | repeated (option : String)
deriving DecidableEq, Repr

/-- The wording of an error. -/
def UsageError.message : UsageError → String
  | noCommand => "error: a command is required"
  | unexpected word => "error: unexpected argument '" ++ word ++ "' found"
  | noValue option => "error: a value is required for '" ++ option ++ "'"
  | repeated option => "error: the argument '" ++ option ++ "' cannot be used multiple times"

/-- The options with a configuration file. -/
def Options.setConfiguration (options : Options) (path : String) : Except UsageError Options :=
  if path.isEmpty then .error (.noValue "--config")
  else if options.configuration?.isSome then .error (.repeated "--config")
  else .ok { options with configuration? := some path }

/-- The options with reports in JSON. -/
def Options.setJson (options : Options) : Except UsageError Options :=
  if options.json then .error (.repeated "--json") else .ok { options with json := true }

/-- A word cut at its first equals sign, if it sets the configuration file. -/
def attachedPath? (word : String) : Option String :=
  (word.dropPrefix? "--config=").map (·.toString)

/-- Whether a word cannot be the value of an option, as it is an option itself. -/
def isOwnOption (word : String) : Bool :=
  word == "--" || word == "--json" || word == "--config" || word == "--help" ||
    word.startsWith "--json=" || word.startsWith "--config=" || word == "-h"

/-- Whether a word looks like an option. -/
def looksLikeOption (word : String) : Bool :=
  word.startsWith "-" && word != "-"

/-- The request of the words behind a command; `finish` makes the command of those that are no
options. -/
def parseBehind (outer : Options) (finish : List String → Except UsageError Command) :
    Options → List String → Except UsageError Request
  | inner, [] => do
      .ok (.command (outer.override inner) (← finish []))
  | inner, "--json" :: rest => do
      parseBehind outer finish (← inner.setJson) rest
  | _, ["--config"] => .error (.noValue "--config")
  | inner, "--config" :: path :: rest => do
      if isOwnOption path then .error (.noValue "--config")
      else parseBehind outer finish (← inner.setConfiguration path) rest
  | inner, word :: rest => do
      match attachedPath? word with
      | some path => parseBehind outer finish (← inner.setConfiguration path) rest
      | none =>
          if word == "--help" || word == "-h" then .ok .help
          else if word.startsWith "--json=" then .error (.unexpected word)
          else
            let tokens := if word == "--" then rest else word :: rest
            .ok (.command (outer.override inner) (← finish tokens))

/-- The command that takes no words. -/
def noTokens : List String → Except UsageError Command
  | [] => .ok .stockConfiguration
  | word :: _ => .error (.unexpected word)

/-- The request of all words. -/
def parse (outer : Options) : List String → Except UsageError Request
  | [] => .error .noCommand
  | "--json" :: rest => do parse (← outer.setJson) rest
  | ["--config"] => .error (.noValue "--config")
  | "--config" :: path :: rest => do
      if looksLikeOption path then .error (.noValue "--config")
      else parse (← outer.setConfiguration path) rest
  | "run" :: rest => parseBehind outer (fun tokens => .ok (.run tokens)) {} rest
  | "gen-config" :: rest => parseBehind outer noTokens {} rest
  | word :: rest => do
      match attachedPath? word with
      | some path => parse (← outer.setConfiguration path) rest
      | none =>
          if word == "--version" || word == "-V" then .ok .version
          else if word == "--help" || word == "-h" || word == "help" then .ok .help
          else .error (.unexpected word)

end CommandLine
end Darkroom
