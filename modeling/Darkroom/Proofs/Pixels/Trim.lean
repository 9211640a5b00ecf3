import Darkroom.Proofs.Pixels.Layers

/-!
# Trimming

A trim cuts an image to the smallest rectangle around the pixels that differ from its first one.
The rectangle is found from the columns and the rows in which some pixel differs: it begins with the
first of them and ends with the last.  What it leaves out looks like the first pixel, so that an
opaque image without a tolerance comes back when it is flattened onto the color of that pixel.
-/

namespace Darkroom

namespace Rect

variable {left right top bottom : Nat}

end Rect

namespace Raster

variable {r : Raster} {fuzz : Float}

end Raster

namespace Layers

variable {image : Image}

end Layers

namespace PixelEngine

variable {image : Image} {fuzz : Float}

end PixelEngine
end Darkroom
