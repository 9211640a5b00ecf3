import Darkroom.Geometry.Scenes
import Darkroom.Limits
import Darkroom.Operators.Image.Basic
import Darkroom.Reel

/-!
# Operators on the list of images

An operator on the list decides what is to be done with it: the engine makes a new list out of all
or some of its images, places are moved, or something is done that leaves the list alone.  Deciding
changes nothing.
-/

namespace Darkroom

/-- What an operator wants done with the list. -/
inductive ListPlan where
  /-- The engine makes a new list out of all images. -/
  | assemble (op : Assembly)
  /-- The engine makes a new list out of some images. -/
  | assembleFrom (images : List Image) (op : Assembly)
  /-- This list takes the place of the list. -/
  | rearrange (images : Reel Image)
  /-- This list, with the images in their old order, takes the place of the list, and the operator
  fails. -/
  | refuse (images : Reel Image) (fault : Fault)
  /-- Every image is mapped onto the colors of the image of a path. -/
  | remap (path : String) (dither : Bool)
  /-- A limit is set. -/
  | limit (resource : Resource) (limit : Limit)
  /-- A text is printed. -/
  | print (text : String)
  /-- All images are written; then they are renamed, if wanted. -/
  | write (request : WriteRequest) (rename : Bool)

/-- An operator on the list. -/
abbrev ListOperator := View → Reel Image → Invocation → Except Fault ListPlan

namespace ListOperator

/-- Work for the engine on all images. -/
def work (op : Assembly) : Except Fault ListPlan :=
  .ok (.assemble op)

/-- An operator without arguments. -/
def always (op : Assembly) : ListOperator :=
  fun _ _ _ => work op

/-- Work for the engine on the images at some positions. -/
def workFrom (images : Reel Image) (positions : List Nat) (op : Assembly) :
    Except Fault ListPlan :=
  match images.copies? positions with
  | some operands => .ok (.assembleFrom operands op)
  | none => .error .missingOperand

/-- A whole number between blanks. -/
def integer (text : String) : Except Fault Int64 :=
  Invocation.wordOf Integer.signed64? text

/-- Images in a row: top to bottom, or left to right when taken back. -/
def append : ListOperator :=
  fun _ _ inv => work (.append inv.normal)

/-- Images in a row with a gap or an overlap. -/
def smush : ListOperator :=
  fun _ _ inv => do work (.smush (← integer (← inv.first)) inv.normal)

/-- All images combined by an operation. -/
def evaluateSequence : ListOperator :=
  fun _ _ inv => do work (.evaluateSequence (← inv.keyword Evaluation))

/-- Channels combined by an expression. -/
def channelFx : ListOperator :=
  fun _ _ inv => do work (.channelFx (← inv.first))

/-- Gray images put together as channels. -/
def combine : ListOperator :=
  fun view _ _ => work (.combine view.settings.image.colorspace)

/-- Pixels computed by an expression. -/
def fx : ListOperator :=
  fun _ _ inv => do work (.fx (← inv.first))

/-- The Fourier transform. -/
def fourier : ListOperator :=
  fun _ _ inv => work (.fourier inv.normal)

/-- The inverse Fourier transform of the first two images. -/
def inverseFourier : ListOperator :=
  fun _ images inv =>
    if images.length < 2 then .error .missingOperand
    else workFrom images [0, 1] (.inverseFourier inv.normal)

/-- Blends between the images. -/
def morph : ListOperator :=
  fun _ _ inv => do
    let text ← inv.first
    let frames ← integer text
    if frames < 0 then throw (.invalidArgument text)
    work (.morph frames.toUInt64)

/-- The first image with its values looked up in the last. -/
def lookup : ListOperator :=
  fun _ images inv =>
    if images.length < 2 then .error .missingOperand
    else workFrom images [0, images.length - 1] (.lookup (inv.name == "hald-clut"))

/-- How images are composed by the settings. -/
def composeSetting (view : View) : Compose :=
  (view.settings.image.keyword? Compose "compose").getD .over

/-- The place of a source on a destination: where its own geometry puts it under the gravity of the
destination. -/
def compositeOffset (destination source : Image) : Int64 × Int64 :=
  let (dx, dy) := match (source.artifacts.get? "geometry").bind Region.parse? with
    | some r => (r.x, r.y)
    | none => (0, 0)
  gravityOffset destination.gravity destination.size source.size dx dy

/-- The second image composed onto the first. -/
def composite : ListOperator :=
  fun view images _ =>
    if images.length < 2 then .error .missingOperand
    else match images.at? 0, images.at? 1 with
      | some destination, some source =>
          let (x, y) := compositeOffset destination source
          workFrom images (List.range (min images.length 3)) (.composite (composeSetting view) x y)
      | _, _ => .error .missingOperand

/-- The position of the null image between two sequences: behind the first image and before the
last. -/
def separator? (images : List Image) : Option Nat :=
  (((images.drop 1).findIdx? Image.isNull).map (· + 1)).filter fun i => i + 1 < images.length

/-- The images behind a null image composed onto those before it. -/
def compositeLayers (view : View) (images : Reel Image) : Except Fault ListPlan :=
  match separator? images.toList with
  | none => .error .missingSeparator
  | some split =>
      let (x, y) := match images.at? 0, images.at? (split + 1) with
        | some destination, some source => compositeOffset destination source
        | _, _ => (0, 0)
      let positions := (List.range images.length).filter (· != split)
      workFrom images positions (.compositeLayers (composeSetting view) x y split)

/-- A method for layers. -/
def layers : ListOperator :=
  fun view images inv => do
    let method ← inv.keyword LayerMethod
    if method = .composite then compositeLayers view images else work (.layers method)

/-- All images mapped onto one palette of their own. -/
def sharePalette (view : View) : Except Fault ListPlan :=
  let quantizing := view.settings.quantizing
  work (.remap quantizing.colorCount quantizing.dither)

/-- Images mapped onto the colors of another, or onto a palette of their own when taken back. -/
def remap : ListOperator :=
  fun view _ inv =>
    if inv.normal then do .ok (.remap (← inv.first) view.settings.quantizing.dither)
    else sharePalette view

/-- The images at the given positions removed, the last one first, so that no removal shifts a
position that is still to come. -/
def removeAll (images : Reel Image) (positions : List Nat) : Reel Image :=
  (positions.mergeSort (· ≤ ·)).eraseReps.foldr
    (fun position images => (images.remove position).2) images

/-- Chosen images removed, or the last one when taken back.  Positions outside the list do not
matter. -/
def delete : ListOperator :=
  fun _ images inv => do
    if inv.normal then
      let positions ← (Scenes.select (← inv.first) images.length).mapError GeometryError.toFault
      .ok (.rearrange (removeAll images positions))
    else .ok (.rearrange images.removeLast.2)

/-- How many copies of which positions an argument asks for: the last image unless given. -/
def copiesAsked (text : String) (length : Nat) : Except Fault (Int64 × List Nat) := do
  match Text.cut? ',' text.toList with
  | some (count, scenes) =>
      let count ← integer (String.ofList count)
      let positions ← (Scenes.parse (String.ofList scenes) length).mapError GeometryError.toFault
      return (count, positions)
  | none => return (← integer text, [length - 1])

/-- Copies of chosen images at the end, or one of the last image when taken back. -/
def duplicate : ListOperator :=
  fun _ images inv => do
    let (count, positions) ←
      if inv.normal then copiesAsked (← inv.first) images.length
      else pure (1, [images.length - 1])
    match images.copies? positions with
    | some copies =>
        let times := count.toInt.toNat
        .ok (.rearrange ((List.replicate times copies).foldl Reel.extend images))
    | none => .error .uncloneable

/-- The last image moved to a position among the others, or to the front when taken back. -/
def insert : ListOperator :=
  fun _ images inv => do
    let index ← if inv.normal then integer (← inv.first) else pure 0
    match images.removeLast with
    | (none, _) => .error .noImages
    | (some image, others) =>
        let length : Int := others.length
        let position := if index < 0 then length + index.toInt else index.toInt
        match if position < 0 then none else others.insert position.toNat image with
        | some (_, images) => .ok (.rearrange images)
        | none => .ok (.refuse (others.push image).2 (.noSuchImage (toString index.toInt)))

/-- The order reversed. -/
def reverse : ListOperator :=
  fun _ images _ => .ok (.rearrange images.reverse)

/-- The indexes that an argument names; the second is the last but one unless given. -/
def swapIndexes (inv : Invocation) : Except Fault (Int64 × Int64) := do
  if inv.normal then
    let g ← inv.geometry
    return (truncInt64 g.rhoValue, truncInt64 (g.sigma.getD (-2.0)))
  else return (-1, -2)

/-- Two images exchanged, the last two when taken back. -/
def swap : ListOperator :=
  fun _ images inv => do
    let (p, q) ← swapIndexes inv
    let missing : Fault := .noSuchImage (toString p.toInt ++ "," ++ toString q.toInt)
    match images.resolve? p.toInt, images.resolve? q.toInt with
    | some i, some j =>
        if i = j then .ok (.rearrange images)
        else match images.swap i j with
          | some images => .ok (.rearrange images)
          | none => .error missing
    | _, _ => .error missing

/-- A limit on a resource. -/
def limit : ListOperator :=
  fun _ _ inv => do
    let resource ← inv.keyword Resource
    let text ← inv.second
    .ok (.limit resource (← Invocation.orInvalid text (Limit.parse? text)))

/-- A template printed for the first image. -/
def print : ListOperator :=
  fun view images inv => do
    .ok (.print (← view.expand images.first? (← inv.first)))

/-- All images written; they are renamed unless the option is taken back. -/
def write : ListOperator :=
  fun view _ inv => do
    let destination ← inv.first
    let settings := view.settings.image
    .ok (.write { destination, adjoin := settings.adjoin, quality := settings.quality } inv.normal)

/-- Every operator on the list, by its name without the sign. -/
def all : List (String × ListOperator) :=
  [ ("append", append),
    ("average", always (.evaluateSequence .mean)),
    ("channel-fx", channelFx),
    ("clut", lookup),
    ("coalesce", always .coalesce),
    ("combine", combine),
    ("composite", composite),
    ("deconstruct", always (.layers .compareAny)),
    ("delete", delete),
    ("duplicate", duplicate),
    ("evaluate-sequence", evaluateSequence),
    ("fft", fourier),
    ("flatten", always (.layers .flatten)),
    ("fx", fx),
    ("hald-clut", lookup),
    ("ift", inverseFourier),
    ("insert", insert),
    ("layers", layers),
    ("limit", limit),
    ("map", fun view _ _ => sharePalette view),
    ("morph", morph),
    ("mosaic", always (.layers .mosaic)),
    ("print", print),
    ("remap", remap),
    ("reverse", reverse),
    ("smush", smush),
    ("swap", swap),
    ("write", write) ]

/-- The operator of a name. -/
def named? (name : String) : Option ListOperator :=
  all.lookup name

end ListOperator
end Darkroom
