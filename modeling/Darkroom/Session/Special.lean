import Darkroom.Listing
import Darkroom.Session.Brackets

/-!
# Brackets, reads, clones and listings as options

The options that neither set anything nor work on the images there are.
-/

namespace Darkroom

/-- An option that acts on the session as a whole. -/
structure SpecialOption (σ : Type) where
  /-- What it does. -/
  act : Engine σ → Invocation → Session σ → Acted σ Unit

namespace SpecialOption

variable {σ : Type}

/-- An option that needs no engine and changes nothing when it fails. -/
def ofStep (act : Invocation → Session σ → Except Fault (Session σ)) : SpecialOption σ where
  act _ inv s := match act inv s with
    | .ok s => (.ok (), s)
    | .error fault => (.error fault, s)

/-- Images read and put at the end of the list. -/
def read : SpecialOption σ where
  act engine inv s := match inv.first with
    | .error fault => (.error fault, s)
    | .ok source =>
        match s.readImages engine source with
        | (.ok images, s) => (.ok (), { s with images := s.images.extend images })
        | (.error fault, s) => (.error fault, s)

/-- Copies from the enclosing list: of chosen images, or of the last one when taken back. -/
def clone : SpecialOption σ :=
  ofStep fun inv s => do
    s.cloneScenes (← if inv.normal then inv.first else .ok "-1")

/-- A listing printed. -/
def list : SpecialOption σ where
  act engine inv s :=
    match inv.first.bind (Listing.text engine.formats engine.fonts s.limits) with
    | .ok text => (.ok (), s.print text)
    | .error fault => (.error fault, s)

/-- An option that does nothing. -/
def nothing : SpecialOption σ :=
  ofStep fun _ s => .ok s

/-- The option of a name. -/
def named? (name : String) : Option (SpecialOption σ) :=
  match name with
  | "(" => some (ofStep fun _ s => s.openScope)
  | ")" => some (ofStep fun _ s => s.closeScope)
  | "\x7b" => some (ofStep fun _ s => s.saveSettings)
  | "\x7d" => some (ofStep fun _ s => s.restoreSettings)
  | "--" | "read" => some read
  | "clone" => some clone
  | "list" => some list
  | "noop" | "sans" | "sans0" | "sans2" => some nothing
  | _ => none

end SpecialOption

namespace Session

variable {σ : Type}

/-- A bracket, read, clone, listing or idle option is applied. -/
def applySpecial (engine : Engine σ) (option : String) (first? : Option String)
    (s : Session σ) : Option Fatal × Session σ :=
  let inv := Invocation.of option first? none
  match SpecialOption.named? inv.name with
  | none => (none, s)
  | some special => settle inv (special.act engine inv s)

end Session
end Darkroom
