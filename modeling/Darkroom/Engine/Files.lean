import Darkroom.Color.Parser
import Darkroom.Disk
import Darkroom.Engine.Basic
import Darkroom.FileFormat

/-!
# Reading and writing image files

Sources such as `xc:red` make images up; a directory stands for the image files below it; any other
source is a file.  Writing puts images into one file or into a numbered file each.
-/

namespace Darkroom
namespace ImageFiles

/-- Refusal with a reason. -/
def fail {α : Type} (reason : String) : Except EngineFault α :=
  .error (.failed reason)

/-- Refusal by the file system. -/
def ioFault (fault : DiskFault) : EngineFault :=
  .io fault.message

/-- The image a source makes up, if it is such a source: one of a single color, or the null
image. -/
def madeUp? (request : ReadRequest) : Option (Except EngineFault Image) :=
  (Text.cut? ':' request.source.toList).bind fun (scheme, rest) =>
    let tagged (format : String) (image : Image) : Image :=
      { image with format, filename := request.source }
    match String.ofList (Text.lower scheme) with
    | "xc" | "canvas" =>
        let color : Except EngineFault Color :=
          if rest.isEmpty then .ok request.background
          else (Color.parse (String.ofList rest)).mapError fun e => .failed e.message
        some (color.map fun color =>
          tagged "XC" (Image.canvas (request.size.getD ⟨1, 1⟩) color))
    | "null" => some (.ok (tagged "NULL" (Image.canvas ⟨1, 1⟩ Color.transparent)))
    | _ => none

/-- An image read from a path. -/
def ofFile (path : String) (bitmap : Bitmap) : Image :=
  { bitmap, format := FileFormat.tagOfPath path, filename := path }

/-- The stand-in for an image of which only the size was wanted. -/
def ofSize (path : String) (size : Size) : Image :=
  { ofFile path (Bitmap.of .l8 (Raster.fill size Color.black)) with pinged := true }

/-- The image of a frame with its number in the file. -/
def ofFrame (path : String) (scene : Nat) (frame : Frame) : Image :=
  let image := ofFile path frame.bitmap
  { image with
    scene := UInt64.ofNat scene
    delay := UInt64.ofNat frame.delay
    page := { image.page with x := frame.x, y := frame.y } }

/-- Why a text is no image. -/
def noImageFormat : String := "The image format could not be determined"

/-- The images of a file's content. -/
def ofContent (path : String) : FileContent → Except EngineFault (List Image)
  | .frames frames => .ok (frames.zipIdx.map fun (frame, scene) => ofFrame path scene frame)
  | .text _ => fail ("Failed to decode " ++ path ++ ": " ++ noImageFormat)

/-- The stand-in for the images of a file. -/
def pingFile (disk : Disk) (path : String) : Except EngineFault (List Image) :=
  let refused (reason : String) : Except EngineFault (List Image) :=
    fail ("Failed to read dimensions of " ++ path ++ ": " ++ reason)
  match disk.read path with
  | .ok (.frames (frame :: _)) => .ok [ofSize path frame.bitmap.size]
  | .ok _ => refused noImageFormat
  | .error fault => refused fault.message

/-- The images of a file, or their stand-in. -/
def readFile (disk : Disk) (ping : Bool) (path : String) : Except EngineFault (List Image) :=
  if ping then pingFile disk path
  else match disk.read path with
    | .ok content => ofContent path content
    | .error fault => .error (ioFault fault)

/-- The images of the image files below a directory. -/
def readDirectory (disk : Disk) (ping : Bool) (path : String) : Except EngineFault (List Image) :=
  let paths := (disk.filesBelow path).map Prod.fst
  ((paths.filter FileFormat.isSearched).mapM (readFile disk ping)).map List.flatten

/-- The images of a source. -/
def read (request : ReadRequest) (disk : Disk) : Except EngineFault (List Image) :=
  match madeUp? request with
  | some image => image.map fun image => [image]
  | none =>
      if disk.isDirectory request.source then readDirectory disk request.ping request.source
      else readFile disk request.ping request.source

/-- The format a destination asks for. -/
def formatTo (destination : String) : Except EngineFault FileFormat :=
  match FileFormat.ofPath? destination with
  | some format => .ok format
  | none => fail ("Unsupported output format: " ++ destination)

/-- The destination of one of several images: its index follows the stem. -/
def numbered (destination : String) (index : Nat) : String :=
  let path := destination.toList
  let stem := (Path.stem? path).getD "image".toList ++ '-' :: (toString index).toList
  let name := match Path.extension? path with
    | some extension => stem ++ '.' :: extension
    | none => stem
  String.ofList (Path.withFileName path name)

/-- What a format keeps of a single image. -/
def frameOf (format : FileFormat) (image : Image) : Frame where
  bitmap := match format, image.bitmap.layout with
    | .jpeg, _ | .bmp, .l8 => image.bitmap.toRgb8
    | .gif, _ => image.bitmap.toRgba8
    | _, _ => image.bitmap

/-- A frame of an animation, its delay in hundredths of a second. -/
def animationFrame (image : Image) : Frame where
  bitmap := image.bitmap.toRgba8
  delay :=
    let milliseconds := (image.delay * 1000 / max image.ticksPerSecond 1).toUInt32
    min (milliseconds.toNat / 10) 65535
  x := max image.page.x 0
  y := max image.page.y 0

/-- A file is written; `refusal` words a fault of the disk. -/
def writeFile (destination : String) (frames : List Frame) (refusal : DiskFault → EngineFault)
    (disk : Disk) : Except EngineFault Unit × Disk :=
  match disk.write destination (.frames frames) with
  | .ok disk => (.ok (), disk)
  | .error fault => (.error (refusal fault), disk)

/-- One image is written to a file of its own. -/
def writeOne (image : Image) (destination : String) (disk : Disk) :
    Except EngineFault Unit × Disk :=
  match formatTo destination with
  | .error refusal => (.error refusal, disk)
  | .ok format =>
      let refusal (fault : DiskFault) : EngineFault :=
        if format = .jpeg then ioFault fault
        else .failed ("Failed to write " ++ destination ++ ": " ++ fault.message)
      writeFile destination [frameOf format image] refusal disk

/-- Images are written to numbered files, from an index on, up to the first refusal. -/
def writeNumbered (destination : String) : (index : Nat) → List Image → Disk →
    Except EngineFault Unit × Disk
  | _, [], disk => (.ok (), disk)
  | index, image :: rest, disk =>
      match writeOne image (numbered destination index) disk with
      | (.ok (), disk) => writeNumbered destination (index + 1) rest disk
      | refused => refused

/-- Images are written.  Several go to one animation if they may be joined and the format allows it,
else to numbered files; `null:` takes everything and keeps nothing. -/
def write (images : List Image) (request : WriteRequest) (disk : Disk) :
    Except EngineFault Unit × Disk :=
  let destination := request.destination
  if sameWord destination "null:" then (.ok (), disk)
  else match images with
    | [] => (.ok (), disk)
    | [image] => writeOne image destination disk
    | images =>
        if !request.adjoin then writeNumbered destination 0 images disk
        else match formatTo destination with
          | .error refusal => (.error refusal, disk)
          | .ok .gif => writeFile destination (images.map animationFrame) ioFault disk
          | .ok _ => writeNumbered destination 0 images disk

/-- The formats, those of files before those of sources. -/
def formats : List FormatEntry :=
  [ ("JPG", .jpeg), ("PNG", .png), ("TIF", .tiff), ("WEBP", .webp), ("GIF", .gif),
    ("BMP", .bmp) ].map (fun (name, format) =>
      ⟨name, FileFormat.description format, true, true⟩) ++
    [ ⟨"XC", "Constant image uniform color", true, false⟩,
      ⟨"NULL", "Constant image of uniform color", true, true⟩ ]

/-- The bytes of a text file; the frames of an image are not kept as bytes. -/
def readBytes (disk : Disk) (path : String) : Except DiskFault (List UInt8) :=
  match disk.read path with
  | .ok (.text text) => .ok text.toUTF8.toList
  | .ok (.frames _) => .ok []
  | .error fault => .error fault

end ImageFiles
end Darkroom
