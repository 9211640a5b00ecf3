import Darkroom.Operators.Image.Catalog
import Darkroom.Operators.List
import Darkroom.Operators.Setting
import Darkroom.Session.Basic

/-!
# Applying settings and operators

Each kind of option is applied in its own way: a setting once, an operator on one image to every
image of the list in turn, an operator on the list once.  A fault is reported with the option as
written; only a fatal one stops the caller.  A name that is no option of the kind does nothing.
-/

namespace Darkroom
namespace Session

variable {σ : Type}

/-- What a setting wants is done. -/
def performSetting (engine : Engine σ) (plan : SettingPlan) (s : Session σ) : Acted σ Unit :=
  match plan with
  | .set settings => (.ok (), { s with settings })
  | .limits memory map =>
      (.ok (), { s with limits := (s.limits.set .memory memory).set .map map })
  | .pattern path install =>
      match s.auxiliaryImage engine path with
      | (.ok image, s) => (.ok (), { s with settings := install image s.settings })
      | (.error fault, s) => (.error fault, s)

/-- A setting is applied. -/
def applySetting (engine : Engine σ) (option : String) (first? : Option String) (s : Session σ) :
    Option Fatal × Session σ :=
  let inv := Invocation.of option first? none
  match SettingOption.named? inv.name with
  | none => (none, s)
  | some setting =>
      settle inv <| match setting s.settings inv with
        | .ok plan => s.performSetting engine plan
        | .error fault => (.error fault, s)

/-- What becomes of an image in its place. -/
inductive Product where
  /-- One image keeps the place. -/
  | same (image : Image)
  /-- These images take the place. -/
  | others (images : List Image)

/-- What the engine's outcome makes of an image, every image that comes out finished. -/
def Product.ofOutcome (image : Image) (finish : Image → Image) : Outcome → Product
  | .unchanged => .same (finish image)
  | .mutated image => .same (finish image)
  | .replaced image => .others [finish image]
  | .parts images => .others (images.map finish)

/-- What an operator wants is done with its image. -/
def performOnImage (engine : Engine σ) (image : Image) (plan : ImagePlan) (s : Session σ) :
    Acted σ Product :=
  match plan with
  | .keep image => (.ok (.same image), s)
  | .setOption key value? image =>
      (.ok (.same image), { s with settings := s.settings.putOption key value? })
  | .print text => (.ok (.same image), s.print text)
  | .apply op finish =>
      let (result, world) := engine.transform image op s.world
      ((result.mapError EngineFault.toFault).map (Product.ofOutcome image finish),
        { s with world })

/-- An operator decides about an image, and it is done. -/
def actOnImage (engine : Engine σ) (operator : ImageOperator) (inv : Invocation) (image : Image)
    (s : Session σ) : Acted σ Product :=
  match operator (s.view engine) image inv with
  | .ok plan => s.performOnImage engine image plan
  | .error fault => (.error fault, s)

/-- The product of an image put into its place. -/
def place (s : Session σ) (h : Handle) : Product → Session σ
  | .same image => { s with images := s.images.restore h image }
  | .others images => { s with images := (s.images.splice h images).2 }

/-- Each image of a list of handles is taken out, brought in line with the settings, worked on and
put back or replaced.  After a fault the image is put back as it was in line with the settings; a
fatal fault ends the pass. -/
def passOver (engine : Engine σ) (operator : ImageOperator) (inv : Invocation) :
    List Handle → Session σ → Option Fatal × Session σ
  | [], s => (none, s)
  | h :: rest, s =>
      match s.images.take h with
      | (none, _) => passOver engine operator inv rest s
      | (some image, images) =>
          let image := s.settings.image.sync image
          match actOnImage engine operator inv image { s with images } with
          | (.ok product, s) => passOver engine operator inv rest (s.place h product)
          | (.error fault, s) =>
              match settle inv (.error fault, s.place h (.same image)) with
              | (some fatal, s) => (some fatal, s)
              | (none, s) => passOver engine operator inv rest s

/-- An operator on one image is applied to every image of the list. -/
def applyToImages (engine : Engine σ) (option : String) (first? second? : Option String)
    (s : Session σ) : Option Fatal × Session σ :=
  let inv := Invocation.of option first? second?
  match ImageOperator.named? inv.name with
  | none => (none, s)
  | some operator =>
      if s.images.isEmpty then settle inv (.error .noImages, s)
      else passOver engine operator inv s.images.order s

/-- Each image of a list of handles is mapped onto the colors of a reference, up to the first
fault. -/
def remapOver (engine : Engine σ) (reference : Image) (dither : Bool) :
    List Handle → Session σ → Acted σ Unit
  | [], s => (.ok (), s)
  | h :: rest, s =>
      match s.images.take h with
      | (none, _) => remapOver engine reference dither rest s
      | (some image, images) =>
          match performOnImage engine image (.apply (.remap reference dither) id)
              { s with images } with
          | (.ok product, s) => remapOver engine reference dither rest (s.place h product)
          | (.error fault, s) => (.error fault, s.place h (.same image))

/-- The engine makes a new list out of some images; when it refuses, the list stays. -/
def assemble (engine : Engine σ) (operands : List Image) (op : Assembly) (s : Session σ) :
    Acted σ Unit :=
  match engine.assemble operands op s.world with
  | (.ok images, world) => (.ok (), { s with images := s.images.replaceAll images, world })
  | (.error refusal, world) => (.error refusal.toFault, { s with world })

/-- The engine makes a new list out of all images, which leave the list for it; when it refuses,
they make up the list again. -/
def assembleAll (engine : Engine σ) (op : Assembly) (s : Session σ) : Acted σ Unit :=
  let images := s.images.intoList
  assemble engine images op { s with images := .ofList images }

/-- All images are written; a cached image of the path is dropped first. -/
def writeImages (engine : Engine σ) (request : WriteRequest) (rename : Bool) (s : Session σ) :
    Acted σ Unit :=
  let path := request.destination
  let (_, cache) := s.cache.evict path
  match engine.write s.images.toList request s.world with
  | (.error refusal, world) => (.error (refusal.toWriteFault path), { s with cache, world })
  | (.ok (), world) =>
      let images :=
        if rename then s.images.updateAll fun _ image => { image with filename := path }
        else s.images
      (.ok (), { s with cache, images, world })

/-- What an operator wants is done with the list. -/
def performOnList (engine : Engine σ) (plan : ListPlan) (s : Session σ) : Acted σ Unit :=
  match plan with
  | .assemble op => s.assembleAll engine op
  | .assembleFrom operands op => s.assemble engine operands op
  | .rearrange images => (.ok (), { s with images })
  | .refuse images fault => (.error fault, { s with images })
  | .remap path dither =>
      match s.auxiliaryImage engine path with
      | (.ok reference, s) => remapOver engine reference dither s.images.order s
      | (.error fault, s) => (.error fault, s)
  | .limit resource limit => (.ok (), { s with limits := s.limits.set resource limit })
  | .print text => (.ok (), s.print text)
  | .write request rename => s.writeImages engine request rename

/-- Every image in line with the settings. -/
def syncAll (s : Session σ) : Session σ :=
  { s with images := s.images.updateAll fun _ image => s.settings.image.sync image }

/-- An operator on the list is applied.  Only limits can be set without images. -/
def applyToList (engine : Engine σ) (option : String) (first? second? : Option String)
    (s : Session σ) : Option Fatal × Session σ :=
  let inv := Invocation.of option first? second?
  match ListOperator.named? inv.name with
  | none => (none, s)
  | some operator =>
      if s.images.isEmpty && inv.name != "limit" then settle inv (.error .noImages, s)
      else
        let s := s.syncAll
        settle inv <| match operator (s.view engine) s.images inv with
          | .ok plan => s.performOnList engine plan
          | .error fault => (.error fault, s)

end Session
end Darkroom
