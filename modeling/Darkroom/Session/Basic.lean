import Darkroom.Engine.Basic
import Darkroom.ImageCache
import Darkroom.IncidentLog
import Darkroom.Nesting
import Darkroom.Operators.Image.Basic
import Darkroom.Reel
import Darkroom.Limits

/-!
# Sessions

A session holds the list of images that options act on, the settings, what brackets have put aside,
the cache of auxiliary images, the limits, and what was reported and printed.  Its world is what
the engine acts on; an action gives its outcome together with the session after it.
-/

namespace Darkroom

/-- The state of a run over worlds of type `σ`. -/
structure Session (σ : Type) where
  /-- The images that options act on. -/
  images : Reel Image := {}
  /-- The settings. -/
  settings : Settings := Settings.initial
  /-- The lists that round brackets have put aside, innermost first. -/
  scopes : Nesting (Reel Image) := {}
  /-- The settings that curly brackets have put aside, innermost first. -/
  saved : Nesting ImageSettings := {}
  /-- The auxiliary images read so far. -/
  cache : ImageCache Image := {}
  /-- The limits that were set. -/
  limits : Limits := .none
  /-- What was reported and not caught. -/
  log : IncidentLog := {}
  /-- What was caught and not handed over. -/
  caught : List Incident := []
  /-- The texts that were printed, in order. -/
  printed : List String := []
  /-- What the engine acts on. -/
  world : σ

/-- The outcome of an action and the session after it. -/
abbrev Acted (σ α : Type) := Except Fault α × Session σ

namespace Session

variable {σ : Type}

/-- What operators can see. -/
def view (engine : Engine σ) (s : Session σ) : View where
  settings := s.settings
  count := s.images.length
  readText := engine.readText s.world
  readBytes := engine.readBytes s.world

/-- The session with a fault reported for an option. -/
def report (s : Session σ) (fault : Fault) (option : String) : Session σ :=
  { s with log := s.log.report fault option }

/-- The session with a text printed. -/
def print (s : Session σ) (text : String) : Session σ :=
  { s with printed := s.printed ++ [text] }

/-- The end of an invocation: its fault, if any, is reported, and a fatal one goes to the caller. -/
def settle (inv : Invocation) (acted : Acted σ Unit) : Option Fatal × Session σ :=
  match acted with
  | (.ok (), s) => (none, s)
  | (.error fault, s) =>
      (if fault.isFatal then some ⟨fault, inv.option⟩ else none, s.report fault inv.option)

/-- What was reported goes to what was caught, unless something fatal was and not all is wanted.
Says whether something fatal was reported. -/
def catchIncidents (s : Session σ) (all : Bool) : Bool × Session σ :=
  let fatal := s.log.worst? == some .fatal
  if fatal && !all then (fatal, s)
  else
    let (incidents, log) := s.log.drain
    (fatal, { s with log, caught := s.caught ++ incidents })

/-- What was caught is handed over. -/
def takeIncidents (s : Session σ) : List Incident × Session σ :=
  (s.caught, { s with caught := [] })

/-- The request to read a source under the settings. -/
def readRequest (s : Session σ) (source : String) (ping : Bool) : ReadRequest where
  source := source
  ping := ping
  size := s.settings.image.sizeInPixels?
  background := s.settings.image.background

/-- Images read from a source. -/
def readImages (engine : Engine σ) (source : String) (s : Session σ) : Acted σ (List Image) :=
  let (result, world) := engine.read (s.readRequest source s.settings.image.ping) s.world
  (result.mapError (EngineFault.toReadFault source), { s with world })

/-- The auxiliary image of a path, read unless it is in the cache. -/
def auxiliaryImage (engine : Engine σ) (path : String) (s : Session σ) : Acted σ Image :=
  match s.cache.get? path with
  | some image => (.ok image, s)
  | none =>
      let (result, world) := engine.read (s.readRequest path false) s.world
      let s := { s with world }
      match result with
      | .error refusal => (.error (refusal.toReadFault path), s)
      | .ok frames =>
          match frames with
          | [] => (.error (.unreadable path "no images"), s)
          | frame :: _ => (.ok frame, { s with cache := s.cache.store path frames })

end Session
end Darkroom
