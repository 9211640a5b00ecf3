import Darkroom.Keyword.Basic

/-!
# Placement and composition

The keyword families of this area, each with the spelling of its values.  The first value of a
family is the one that stands when nothing was set.
-/

namespace Darkroom

/-- Placement of text, offsets and composited images. -/
inductive Gravity where
  | undefined | forget | northWest | north | northEast | west | center | east | southWest | south
  | southEast
deriving DecidableEq, Repr, Inhabited

instance : Keyword Gravity where
  family := "gravity"
  all := [.undefined, .forget, .northWest, .north, .northEast, .west, .center, .east, .southWest,
    .south, .southEast]
  name
    | .undefined => "Undefined"
    | .forget => "Forget"
    | .northWest => "NorthWest"
    | .north => "North"
    | .northEast => "NorthEast"
    | .west => "West"
    | .center => "Center"
    | .east => "East"
    | .southWest => "SouthWest"
    | .south => "South"
    | .southEast => "SouthEast"
  aliases
    | .undefined => ["None"]
    | _ => []

/-- How a source pixel combines with what lies under it. -/
inductive Compose where
  | over | atop | blend | clear | copy | darken | difference | destination | destinationOver
  | inside | lighten | minus | multiply | outside | plus | screen | exclusive
deriving DecidableEq, Repr, Inhabited

instance : Keyword Compose where
  family := "compose"
  all := [.over, .atop, .blend, .clear, .copy, .darken, .difference, .destination,
    .destinationOver, .inside, .lighten, .minus, .multiply, .outside, .plus, .screen, .exclusive]
  name
    | .over => "Over"
    | .atop => "Atop"
    | .blend => "Blend"
    | .clear => "Clear"
    | .copy => "Copy"
    | .darken => "Darken"
    | .difference => "Difference"
    | .destination => "Dst"
    | .destinationOver => "DstOver"
    | .inside => "In"
    | .lighten => "Lighten"
    | .minus => "Minus"
    | .multiply => "Multiply"
    | .outside => "Out"
    | .plus => "Plus"
    | .screen => "Screen"
    | .exclusive => "Xor"
  aliases
    | .copy => ["Src"]
    | _ => []

/-- What to do with a sequence of layers. -/
inductive LayerMethod where
  | coalesce | compareAny | compareClear | compareOverlay | composite | dispose | flatten | merge
  | mosaic | optimize | optimizeImage | optimizePlus | optimizeTransparency | removeDups
  | removeZero | trimBounds
deriving DecidableEq, Repr, Inhabited

instance : Keyword LayerMethod where
  family := "layers"
  all := [.coalesce, .compareAny, .compareClear, .compareOverlay, .composite, .dispose, .flatten,
    .merge, .mosaic, .optimize, .optimizeImage, .optimizePlus, .optimizeTransparency,
    .removeDups, .removeZero, .trimBounds]
  name
    | .coalesce => "Coalesce"
    | .compareAny => "CompareAny"
    | .compareClear => "CompareClear"
    | .compareOverlay => "CompareOverlay"
    | .composite => "Composite"
    | .dispose => "Dispose"
    | .flatten => "Flatten"
    | .merge => "Merge"
    | .mosaic => "Mosaic"
    | .optimize => "Optimize"
    | .optimizeImage => "OptimizeFrame"
    | .optimizePlus => "OptimizePlus"
    | .optimizeTransparency => "OptimizeTransparency"
    | .removeDups => "RemoveDups"
    | .removeZero => "RemoveZero"
    | .trimBounds => "TrimBounds"
  aliases
    | .optimizeImage => ["OptimizeImage"]
    | .optimizeTransparency => ["OptimizeTrans"]
    | _ => []

namespace LayerMethod

/-- Whether the method flattens the layers onto one canvas. -/
def isMerging : LayerMethod → Bool
  | .flatten | .merge | .mosaic => true
  | _ => false

end LayerMethod

/-- What to do with the alpha channel. -/
inductive AlphaMode where
  | undefined | activate | background | copy | deactivate | extract | off | on | solid | remove
  | assign | shape | transparent
deriving DecidableEq, Repr, Inhabited

instance : Keyword AlphaMode where
  family := "alpha"
  all := [.undefined, .activate, .background, .copy, .deactivate, .extract, .off, .on, .solid,
    .remove, .assign, .shape, .transparent]
  name
    | .undefined => "Undefined"
    | .activate => "Activate"
    | .background => "Background"
    | .copy => "Copy"
    | .deactivate => "Deactivate"
    | .extract => "Extract"
    | .off => "Off"
    | .on => "On"
    | .solid => "Opaque"
    | .remove => "Remove"
    | .assign => "Set"
    | .shape => "Shape"
    | .transparent => "Transparent"
  aliases _ := []

/-- What an animation does with a frame after showing it. -/
inductive Dispose where
  | undefined | none | background | previous
deriving DecidableEq, Repr, Inhabited

instance : Keyword Dispose where
  family := "dispose"
  all := [.undefined, .none, .background, .previous]
  name
    | .undefined => "Undefined"
    | .none => "None"
    | .background => "Background"
    | .previous => "Previous"
  aliases
    | .undefined => ["0"]
    | .none => ["1"]
    | .background => ["2"]
    | .previous => ["3"]

end Darkroom
