import Darkroom.Text.Path

/-!
# File formats

The formats of image files.  The extension of a path alone decides its format, whatever the case of
its letters.
-/

namespace Darkroom

/-- The formats of image files. -/
inductive FileFormat where
  | jpeg
  | png
  | tiff
  | webp
  | gif
  | bmp
deriving DecidableEq, Repr

namespace FileFormat

/-- The extensions a directory is searched for, in the order of listings. -/
def searched : List (String × FileFormat) :=
  [ ("jpg", jpeg), ("jpeg", jpeg), ("png", png), ("tif", tiff), ("tiff", tiff), ("webp", webp),
    ("gif", gif), ("bmp", bmp) ]

/-- The format of an extension in lower case. -/
def ofExtension? (extension : String) : Option FileFormat :=
  (searched ++ [("jfif", jpeg), ("apng", png)]).lookup extension

/-- The format of a path. -/
def ofPath? (path : String) : Option FileFormat :=
  (Path.loweredExtension? path).bind ofExtension?

/-- Whether a directory search takes a file of this name. -/
def isSearched (path : String) : Bool :=
  ((Path.loweredExtension? path).bind fun extension => searched.lookup extension).isSome

/-- The tag of an image read from a file of the format. -/
def tag : FileFormat → String
  | jpeg => "JPG"
  | png => "PNG"
  | tiff => "TIFF"
  | webp => "WEBP"
  | gif => "GIF"
  | bmp => "BMP"

/-- What the format is. -/
def description : FileFormat → String
  | jpeg => "Joint Photographic Experts Group"
  | png => "Portable Network Graphics"
  | tiff => "Tagged Image File Format"
  | webp => "WebP"
  | gif => "CompuServe Graphics Interchange Format"
  | bmp => "Microsoft Windows bitmap"

/-- The tag of an image read from a path. -/
def tagOfPath (path : String) : String :=
  match ofPath? path with
  | some format => format.tag
  | none => "UNKNOWN"

end FileFormat
end Darkroom
