import Darkroom.Toml.Quoted
import Darkroom.Toml.Scalar
import Darkroom.Toml.Tree

/-!
# TOML statements

A document is a sequence of statements: headers that open a table or one more table of a sequence,
and values for dotted keys.  A reader takes something off the front of a text and gives it with what
follows.
-/

namespace Darkroom
namespace Toml

/-- One statement of a document. -/
inductive Statement where
  /-- A header that opens a table. -/
  | table (path : List String) (key : String)
  /-- A header that opens one more table of a sequence. -/
  | element (path : List String) (key : String)
  /-- A value for a key. -/
  | assign (assignment : Assignment)

/-- The text without the blanks at its start. -/
def dropBlanks (s : List Char) : List Char :=
  s.dropWhile fun c => c == ' ' || c == '\t'

/-- What follows a character, if it comes first. -/
def skip? (c : Char) : List Char → Option (List Char)
  | d :: rest => if d = c then some rest else none
  | [] => none

/-- A character of an unquoted key. -/
def isKeyChar (c : Char) : Bool :=
  c.isAlphanum || c == '_' || c == '-'

/-- A key without dots. -/
def simpleKey? (s : List Char) : Option (String × List Char) :=
  match Quoted.line? s with
  | some (key, rest) => some (String.ofList key, rest)
  | none =>
      let key := s.takeWhile isKeyChar
      if key.isEmpty then none else some (String.ofList key, s.dropWhile isKeyChar)

/-- A dotted key; `fuel` bounds the number of its parts.  Blanks may stand around each part. -/
def dottedKey? : (fuel : Nat) → List Char → Option (List String × List Char)
  | 0, _ => none
  | fuel + 1, s => do
      let (key, rest) ← simpleKey? (dropBlanks s)
      let rest := dropBlanks rest
      match rest with
      | '.' :: rest => do
          let (keys, rest) ← dottedKey? fuel rest
          some (key :: keys, rest)
      | _ => some ([key], rest)

/-- How deep values and dotted keys can nest. -/
def depthLimit : Nat := 80

/-- The keys in front of the last dot, the key after it, and what follows. -/
def key? (s : List Char) : Option (List String × String × List Char) := do
  let (keys, rest) ← dottedKey? (s.length + 1) s
  let key ← keys.getLast?
  if keys.length ≤ depthLimit then some (keys.dropLast, key, rest) else none

/-- The text after blanks, comments and line ends; `inComment` says that a comment has begun. -/
def dropFiller : (inComment : Bool) → List Char → List Char
  | _, [] => []
  | false, c :: rest =>
      if c == ' ' || c == '\t' || c == '\n' then dropFiller false rest
      else if c == '#' then dropFiller true rest
      else c :: rest
  | true, c :: rest =>
      if c == '\n' then dropFiller false rest
      else if Quoted.isPlain c then dropFiller true rest
      else c :: rest

/-- An assignment, given how to read a value. -/
def assignment? (value? : List Char → Option (Toml × List Char)) (s : List Char) :
    Option (Assignment × List Char) := do
  let (path, key, rest) ← key? s
  let rest ← skip? '=' rest
  let (value, rest) ← value? (dropBlanks rest)
  some (⟨path, key, value⟩, rest)

/-- The items of an array up to its closing bracket; `fuel` bounds their number. -/
def items? (value? : List Char → Option (Toml × List Char)) : (fuel : Nat) → List Char →
    Option (List Toml × List Char)
  | 0, _ => none
  | fuel + 1, s =>
      match dropFiller false s with
      | ']' :: rest => some ([], rest)
      | s => do
          let (item, rest) ← value? s
          match dropFiller false rest with
          | ']' :: rest => some ([item], rest)
          | ',' :: rest => do
              let (items, rest) ← items? value? fuel rest
              some (item :: items, rest)
          | _ => none

/-- The assignments of an inline table up to its closing bracket; `fuel` bounds their number. -/
def assignments? (value? : List Char → Option (Toml × List Char)) : (fuel : Nat) → List Char →
    Option (List Assignment × List Char)
  | 0, _ => none
  | fuel + 1, s => do
      let (first, rest) ← assignment? value? s
      match dropBlanks rest with
      | '\x7d' :: rest => some ([first], rest)
      | ',' :: rest => do
          let (more, rest) ← assignments? value? fuel rest
          some (first :: more, rest)
      | _ => none

/-- An inline table after its opening bracket. -/
def inlineTable? (value? : List Char → Option (Toml × List Char)) (s : List Char) :
    Option (Toml × List Char) :=
  match dropBlanks s with
  | '\x7d' :: rest => some (.table [], rest)
  | s => do
      let (assignments, rest) ← assignments? value? (s.length + 1) s
      let table ← Nodes.ofAssignments? assignments
      some (table, rest)

/-- A value, with brackets nested at most `depth` deep. -/
def valueWithin? : (depth : Nat) → List Char → Option (Toml × List Char)
  | depth, '[' :: rest =>
      match depth with
      | 0 => none
      | depth + 1 => do
          let (items, rest) ← items? (valueWithin? depth) (rest.length + 1) rest
          some (.array items, rest)
  | depth, '\x7b' :: rest =>
      match depth with
      | 0 => none
      | depth + 1 => inlineTable? (valueWithin? depth) rest
  | _, s =>
      match s.head? with
      | some '"' | some '\'' => do
          let (text, rest) ← Quoted.text? s
          some (.string (String.ofList text), rest)
      | _ => scalar? s

/-- A value. -/
def value? (s : List Char) : Option (Toml × List Char) :=
  valueWithin? (depthLimit - 1) s

/-- What follows the end of a line: blanks and a comment may stand before it. -/
def endOfLine? (s : List Char) : Option (List Char) :=
  let rest := match dropBlanks s with
    | '#' :: comment => comment.dropWhile Quoted.isPlain
    | rest => rest
  match rest with
  | [] => some []
  | '\n' :: rest => some rest
  | _ => none

/-- A statement and what follows its line. -/
def statement? (s : List Char) : Option (Statement × List Char) :=
  match s with
  | '[' :: '[' :: s => do
      let (path, key, rest) ← key? s
      let rest ← (skip? ']' rest).bind (skip? ']')
      let rest ← endOfLine? rest
      some (.element path key, rest)
  | '[' :: s => do
      let (path, key, rest) ← key? s
      let rest ← (skip? ']' rest).bind endOfLine?
      some (.table path key, rest)
  | s => do
      let (assignment, rest) ← assignment? value? s
      let rest ← endOfLine? rest
      some (.assign assignment, rest)

/-- All statements of a text; `fuel` bounds their number and that of the lines without one. -/
def statements? : (fuel : Nat) → List Char → Option (List Statement)
  | 0, _ => none
  | fuel + 1, s =>
      match dropBlanks s with
      | [] => some []
      | '\n' :: rest => statements? fuel rest
      | '#' :: rest => do
          let rest ← endOfLine? ('#' :: rest)
          statements? fuel rest
      | s => do
          let (statement, rest) ← statement? s
          let more ← statements? fuel rest
          some (statement :: more)

end Toml
end Darkroom
