import Darkroom.Keyword.Basic

/-!
# How text and shapes are drawn

The keyword families of this area, each with the spelling of its values.  The first value of a
family is the one that stands when nothing was set.
-/

namespace Darkroom

/-- The direction text runs in. -/
inductive Direction where
  | leftToRight | rightToLeft
deriving DecidableEq, Repr, Inhabited

instance : Keyword Direction where
  family := "direction"
  all := [.leftToRight, .rightToLeft]
  name
    | .leftToRight => "left-to-right"
    | .rightToLeft => "right-to-left"
  aliases _ := []

/-- The width of a font. -/
inductive Stretch where
  | normal | ultraCondensed | condensed | semiCondensed | semiExpanded | expanded | ultraExpanded
  | any
deriving DecidableEq, Repr, Inhabited

instance : Keyword Stretch where
  family := "stretch"
  all := [.normal, .ultraCondensed, .condensed, .semiCondensed, .semiExpanded, .expanded,
    .ultraExpanded, .any]
  name
    | .normal => "Normal"
    | .ultraCondensed => "UltraCondensed"
    | .condensed => "Condensed"
    | .semiCondensed => "SemiCondensed"
    | .semiExpanded => "SemiExpanded"
    | .expanded => "Expanded"
    | .ultraExpanded => "UltraExpanded"
    | .any => "Any"
  aliases _ := []

/-- The slant of a font. -/
inductive Style where
  | normal | italic | oblique | any
deriving DecidableEq, Repr, Inhabited

instance : Keyword Style where
  family := "style"
  all := [.normal, .italic, .oblique, .any]
  name
    | .normal => "Normal"
    | .italic => "Italic"
    | .oblique => "Oblique"
    | .any => "Any"
  aliases _ := []

end Darkroom
