import Darkroom.Geometry.Rect

/-!
# Sizes of resized images

A resize geometry gives a box, a percentage or an area.  A box is fitted with the aspect ratio
kept, unless the geometry says otherwise; the result is never empty.
-/

namespace Darkroom

/-- The nearest size, at least one pixel each way. -/
def Size.nearest {α : Type} [Scalar α] (width height : α) : Size :=
  ⟨max 1 (Scalar.toWord width), max 1 (Scalar.toWord height)⟩

namespace Fit

variable {α : Type} [Scalar α]

/-- The size a geometry asks for: percentages of the source, or a box with a missing side chosen to
keep the aspect ratio. -/
def requested (m : Modifiers) (width height : Option α) (w h : α) : α × α :=
  if m.percent then
    let hundred := Scalar.whole 100
    let px := width.getD hundred
    let py := height.getD px
    (w * px / hundred, h * py / hundred)
  else match width, height with
    | some a, some b => (a, b)
    | some a, none => (a, h * a / w)
    | none, some b => (w * b / h, b)
    | none, none => (w, h)

/-- Whether the requested size is taken as it is, not fitted. -/
def isExact (m : Modifiers) (width height : Option α) : Bool :=
  m.percent || m.aspect || width.isNone || height.isNone

/-- The requested size with the aspect ratio of the source: the greatest inside the box, or the
least that covers it. -/
def target (m : Modifiers) (width height : Option α) (w h : α) : α × α :=
  let (a, b) := requested m width height w h
  if isExact m width height then (a, b)
  else
    let sx := a / w
    let sy := b / h
    let scale := if m.minimum then Scalar.greatest sx sy else Scalar.least sx sy
    (w * scale, h * scale)

/-- The size of a source resized to a box or by percentages. -/
def box (source : Size) (m : Modifiers) (width height : Option α) : Size :=
  let w : α := Scalar.whole (max 1 source.width.toNat)
  let h : α := Scalar.whole (max 1 source.height.toNat)
  let (a, b) := target m width height w h
  if m.greater && Scalar.atMost w a && Scalar.atMost h b then source
  else if m.less && Scalar.atMost a w && Scalar.atMost b h then source
  else Size.nearest a b

/-- The size of a source resized to an area. -/
def area (source : Size) (m : Modifiers) (limit : Option Float) : Size :=
  let w := Float.ofNat (max 1 source.width.toNat)
  let h := Float.ofNat (max 1 source.height.toNat)
  let current := w * h
  let wanted := limit.getD current
  if (m.greater && current ≤ wanted) || (m.less && wanted ≤ current) then source
  else
    let scale := (wanted / current).sqrt
    Size.nearest (w * scale) (h * scale)

end Fit

/-- The size of a source after a resize by a geometry. -/
def resizeDimensions (source : Size) (r : Region) : Size :=
  if r.modifiers.area then Fit.area source r.modifiers r.width
  else Fit.box source r.modifiers r.width r.height

end Darkroom
