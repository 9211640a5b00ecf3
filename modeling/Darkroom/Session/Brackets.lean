import Darkroom.Geometry.Scenes
import Darkroom.Session.Basic

/-!
# Brackets

Round brackets put the list of images aside and bring it back in front of the images made inside.
Curly brackets put the settings aside and bring them back.  When round brackets are to respect the
settings, they do both.  A bracket that is refused changes nothing.
-/

namespace Darkroom

/-- Whether round brackets put the settings aside too. -/
def ImageSettings.respectsBrackets (s : ImageSettings) : Bool :=
  match s.option? "respect-parenthesis" with
  | some text => sameWord text "true"
  | none => false

namespace Session

variable {σ : Type}

/-- The settings are put aside and stay in force. -/
def saveSettings (s : Session σ) : Except Fault (Session σ) :=
  match s.saved.push s.settings.image with
  | .ok saved => .ok { s with saved }
  | .error _ => .error .nestedTooDeeply

/-- The settings put aside last come back into force. -/
def restoreSettings (s : Session σ) : Except Fault (Session σ) :=
  match s.saved.pop with
  | .ok (image, saved) => .ok { s with settings := .rebuilt image, saved }
  | .error _ => .error .unbalanced

/-- A round bracket opens: the list is put aside and a new one begins. -/
def openScope (s : Session σ) : Except Fault (Session σ) :=
  let coupled := s.settings.image.respectsBrackets
  if coupled && s.saved.isFull then .error .nestedTooDeeply
  else match s.scopes.push s.images with
    | .error _ => .error .nestedTooDeeply
    | .ok scopes =>
        let s := { s with scopes, images := {} }
        if coupled then s.saveSettings else .ok s

/-- A round bracket closes: the list put aside last comes back, followed by the images made
inside. -/
def closeScope (s : Session σ) : Except Fault (Session σ) :=
  match s.scopes.pop with
  | .error _ => .error .unbalanced
  | .ok (outer, scopes) =>
      let s := { s with scopes, images := outer.append s.images }
      match s.saved.top? with
      | some settings => if settings.respectsBrackets then s.restoreSettings else .ok s
      | none => .ok s

/-- Copies of chosen images of the list put aside last, at the end of the list. -/
def cloneScenes (scenes : String) (s : Session σ) : Except Fault (Session σ) :=
  if !Scenes.isList scenes.toList then .error (.invalidArgument scenes)
  else match s.scopes.top?.filter fun outer => !outer.isEmpty with
    | none => .error .uncloneable
    | some outer =>
        match (Scenes.parse scenes outer.length).toOption.bind outer.copies? with
        | some copies => .ok { s with images := s.images.extend copies }
        | none => .error (.noSuchImage scenes)

end Session
end Darkroom
