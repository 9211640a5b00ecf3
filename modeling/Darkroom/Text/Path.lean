import Darkroom.Text.Basic

/-!
# Paths

File names are cut out of path texts.  Empty parts and the part `.` mean nothing, except a leading
`.`, which stands for itself; `..` is no file name.
-/

namespace Darkroom
namespace Path

/-- A path as its lead, which is `/`, a leading `.`, or nothing, and the parts between the slashes
of what follows. -/
structure Parts where
  /-- The lead. -/
  lead : List Char
  /-- The parts. -/
  parts : List (List Char)
deriving DecidableEq, Repr

/-- The parts of a path text. -/
def parts : List Char → Parts
  | '/' :: rest => ⟨['/'], rest.splitOn '/'⟩
  | ['.'] => ⟨['.'], []⟩
  | '.' :: '/' :: rest => ⟨['.'], [] :: rest.splitOn '/'⟩
  | text => ⟨[], text.splitOn '/'⟩

/-- A part that means nothing. -/
def isIdle (part : List Char) : Bool :=
  part.isEmpty || part == ['.']

/-- The parts in reverse without the idle ones at the end. -/
def meaningful (parts : List (List Char)) : List (List Char) :=
  parts.reverse.dropWhile isIdle

/-- The text of a lead and parts in reverse. -/
def join (lead : List Char) (reversed : List (List Char)) : List Char :=
  lead ++ ['/'].intercalate reversed.reverse

/-- The last part, unless it is `..` or there is none. -/
def fileName? (path : List Char) : Option (List Char) :=
  match meaningful (parts path).parts with
  | [] => none
  | name :: _ => if name = ['.', '.'] then none else some name

/-- The path without its last part; the root and the empty path have no parent. -/
def parent? (path : List Char) : Option (List Char) :=
  let p := parts path
  match meaningful p.parts with
  | _ :: rest => some (join p.lead (rest.dropWhile isIdle))
  | [] => if p.lead = ['.'] then some [] else none

/-- A name cut at its last dot; a leading dot cuts nothing, and neither does `..`. -/
def cutName (name : List Char) : List Char × Option (List Char) :=
  if name = ['.', '.'] then (name, none)
  else match Text.cut? '.' name.reverse with
    | none => (name, none)
    | some (_, []) => (name, none)
    | some (extension, stem) => (stem.reverse, some extension.reverse)

/-- The file name without its extension. -/
def stem? (path : List Char) : Option (List Char) :=
  (fileName? path).map fun name => (cutName name).1

/-- The extension of the file name. -/
def extension? (path : List Char) : Option (List Char) :=
  (fileName? path).bind fun name => (cutName name).2

/-- A name below a path. -/
def child (path name : List Char) : List Char :=
  match path.getLast? with
  | none => name
  | some c => if c = '/' then path ++ name else path ++ '/' :: name

/-- The path with another file name. -/
def withFileName (path name : List Char) : List Char :=
  match fileName? path with
  | some _ => child ((parent? path).getD path) name
  | none => child path name

/-- The extension of a path text in lower case. -/
def loweredExtension? (path : String) : Option String :=
  (extension? path.toList).map fun e => String.ofList (Text.lower e)

end Path
end Darkroom
