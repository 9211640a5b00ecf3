import Darkroom.Pixels.Bitmap
import Darkroom.Text.Path

/-!
# Disks

Files by their place in a tree of directories.  A directory is there as long as a file is below it.
A file holds a text or the frames of an image, which are kept without loss.
-/

namespace Darkroom

/-- Why a path cannot be used. -/
inductive DiskFault where
  /-- Nothing is there. -/
  | missing
  /-- A file stands where a directory is needed. -/
  | notDirectory
  /-- A directory stands where a file is needed. -/
  | isDirectory
  /-- A name has more than 255 bytes. -/
  | nameTooLong
  /-- The path holds the character with code zero. -/
  | nulCharacter
  /-- The file is no text. -/
  | notText
deriving DecidableEq, Repr

namespace DiskFault

/-- The system's number of an error, if the system found it. -/
def code? : DiskFault → Option Nat
  | missing => some 2
  | notDirectory => some 20
  | isDirectory => some 21
  | nameTooLong => some 36
  | nulCharacter | notText => none

/-- The kind of a fault in one word. -/
def kind : DiskFault → String
  | missing => "NotFound"
  | notDirectory => "NotADirectory"
  | isDirectory => "IsADirectory"
  | nameTooLong => "InvalidFilename"
  | nulCharacter => "InvalidInput"
  | notText => "InvalidData"

/-- What is wrong. -/
def reason : DiskFault → String
  | missing => "No such file or directory"
  | notDirectory => "Not a directory"
  | isDirectory => "Is a directory"
  | nameTooLong => "File name too long"
  | nulCharacter => "file name contained an unexpected NUL byte"
  | notText => "stream did not contain valid UTF-8"

/-- The wording of a fault, with the number of the error. -/
def message (fault : DiskFault) : String :=
  match fault.code? with
  | some code => fault.reason ++ " (os error " ++ toString code ++ ")"
  | none => fault.reason

end DiskFault

/-- A frame of an image file. -/
structure Frame where
  /-- The pixels. -/
  bitmap : Bitmap
  /-- How long it is shown, in hundredths of a second. -/
  delay : Nat := 0
  /-- The horizontal place on the page. -/
  x : Int64 := 0
  /-- The vertical place on the page. -/
  y : Int64 := 0

/-- What a file holds. -/
inductive FileContent where
  /-- A text. -/
  | text (text : String)
  /-- The frames of an image. -/
  | frames (frames : List Frame)

/-- Files by the names on the way to them. -/
structure Disk where
  /-- The files. -/
  files : List (List String × FileContent) := []

namespace Disk

instance : Inhabited Disk := ⟨{}⟩

/-- The content of the file at a place. -/
def fileAt? (disk : Disk) (place : List String) : Option FileContent :=
  disk.files.lookup place

/-- Whether a directory is at a place; the top always is one. -/
def isDirectoryAt (disk : Disk) (place : List String) : Bool :=
  place.isEmpty || disk.files.any fun (name, _) => place.isPrefixOf name && place != name

/-- The first name on the way to files with absolute paths. -/
def root : String := "/"

/-- The place a path starts from: the top, or the root for an absolute path. -/
def startOf (path : List Char) : List String :=
  if path.head? = some '/' then [root] else []

/-- The place a file of a name gets. -/
def placeOf (name : String) : List String :=
  let parts := (name.toList.splitOn '/').filter fun part => !Path.isIdle part
  startOf name.toList ++ parts.map String.ofList

/-- The place one directory up; nothing is above the top or the root. -/
def above (place : List String) : List String :=
  if place = [root] then place else place.dropLast

/-- The place reached by following names from a directory.  Every name but the last one must lead
to a directory, and so must a name in front of an idle part. -/
def follow (disk : Disk) : (names place : List String) → Except DiskFault (List String)
  | [], place => .ok place
  | name :: rest, place =>
      if !disk.isDirectoryAt place then
        .error (if (disk.fileAt? place).isSome then .notDirectory else .missing)
      else if 255 < name.utf8ByteSize then .error .nameTooLong
      else if Path.isIdle name.toList then follow disk rest place
      else if name = ".." then follow disk rest (above place)
      else follow disk rest (place ++ [name])

/-- The place of a path, which need not exist; the empty path has none. -/
def locate (disk : Disk) (path : String) : Except DiskFault (List String) :=
  if path.contains '\x00' then .error .nulCharacter
  else if path.isEmpty then .error .missing
  else
    let names := (path.toList.splitOn '/').map String.ofList
    disk.follow names (startOf path.toList)

/-- Whether a path leads to a directory. -/
def isDirectory (disk : Disk) (path : String) : Bool :=
  match disk.locate path with
  | .ok place => disk.isDirectoryAt place
  | .error _ => false

/-- The content of the file of a path. -/
def read (disk : Disk) (path : String) : Except DiskFault FileContent := do
  let place ← disk.locate path
  match disk.fileAt? place with
  | some content => .ok content
  | none => .error (if disk.isDirectoryAt place then .isDirectory else .missing)

/-- The text of the file of a path. -/
def readText (disk : Disk) (path : String) : Except DiskFault String :=
  match disk.read path with
  | .ok (.text text) => .ok text
  | .ok (.frames _) => .error .notText
  | .error fault => .error fault

/-- Whether a path leads to a file or a directory. -/
def contains (disk : Disk) (path : String) : Bool :=
  match disk.locate path with
  | .ok place => disk.isDirectoryAt place || (disk.fileAt? place).isSome
  | .error _ => false

/-- The disk with a file at a place; it replaces one that was there. -/
def insertAt (disk : Disk) (place : List String) (content : FileContent) : Disk :=
  ⟨disk.files.filter (fun (name, _) => name != place) ++ [(place, content)]⟩

/-- The place a file of a path can be written to: its directory is there, and no directory of its
own name. -/
def placeToWrite (disk : Disk) (path : String) : Except DiskFault (List String) := do
  let name := path.toList
  if name.getLast? = some '/' then
    let _ ← disk.locate (String.ofList (name.reverse.dropWhile (· == '/')).reverse)
    .error .isDirectory
  else
    let place ← disk.locate path
    if disk.isDirectoryAt place then .error .isDirectory
    else if disk.isDirectoryAt place.dropLast then .ok place
    else .error (if (disk.fileAt? place.dropLast).isSome then .notDirectory else .missing)

/-- The disk with a file written. -/
def write (disk : Disk) (path : String) (content : FileContent) : Except DiskFault Disk :=
  (disk.placeToWrite path).map fun place => disk.insertAt place content

/-- The files below a directory in the order of their names, directory by directory, with the paths
that lead to them. -/
def filesBelow (disk : Disk) (path : String) : List (String × FileContent) :=
  match disk.locate path with
  | .error _ => []
  | .ok place =>
      let below := disk.files.filter fun (name, _) => place.isPrefixOf name
      (below.mergeSort fun (a, _) (b, _) => decide (a ≤ b)).map fun (name, content) =>
        let names := name.drop place.length
        (String.ofList (names.foldl (fun path part => Path.child path part.toList) path.toList),
          content)

/-- The disk that holds texts by name. -/
def ofTexts (texts : List (String × String)) : Disk :=
  texts.foldl (fun disk (name, text) => disk.insertAt (placeOf name) (.text text)) {}

end Disk
end Darkroom
