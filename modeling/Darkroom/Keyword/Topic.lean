import Darkroom.Keyword.Basic

/-!
# Resources and listing topics

The keyword families of this area, each with the spelling of its values.  The first value of a
family is the one that stands when nothing was set.
-/

namespace Darkroom

/-- The resources that have limits. -/
inductive Resource where
  | area | disk | file | height | listLength | map | memory | thread | throttle | time | width
deriving DecidableEq, Repr, Inhabited

instance : Keyword Resource where
  family := "resource"
  all := [.area, .disk, .file, .height, .listLength, .map, .memory, .thread, .throttle, .time,
    .width]
  name
    | .area => "Area"
    | .disk => "Disk"
    | .file => "File"
    | .height => "Height"
    | .listLength => "List-Length"
    | .map => "Map"
    | .memory => "Memory"
    | .thread => "Thread"
    | .throttle => "Throttle"
    | .time => "Time"
    | .width => "Width"
  aliases
    | .listLength => ["ListLength"]
    | _ => []

/-- The topics that can be listed. -/
inductive Topic where
  | list | coder | color | configure | font | format | resource
deriving DecidableEq, Repr, Inhabited

instance : Keyword Topic where
  family := "list"
  all := [.list, .coder, .color, .configure, .font, .format, .resource]
  name
    | .list => "List"
    | .coder => "Coder"
    | .color => "Color"
    | .configure => "Configure"
    | .font => "Font"
    | .format => "Format"
    | .resource => "Resource"
  aliases _ := []

end Darkroom
