import Darkroom.Engine.Transform

/-!
# Engines

What a session needs from outside: files to read and write, and work on pixels.  An engine acts on
a world of its own kind; a session only hands the world on.
-/

namespace Darkroom

/-- A file format as listings show it. -/
structure FormatEntry where
  /-- The name. -/
  name : String
  /-- What it is. -/
  description : String
  /-- Files of it can be read. -/
  readable : Bool
  /-- Files of it can be written. -/
  writable : Bool
deriving DecidableEq, Repr

/-- Everything a session asks for, over worlds of type `σ`. -/
structure Engine (σ : Type) where
  /-- Reads images. -/
  read : ReadRequest → σ → Except EngineFault (List Image) × σ
  /-- Writes images. -/
  write : List Image → WriteRequest → σ → Except EngineFault Unit × σ
  /-- Works on one image. -/
  transform : Image → Transform → σ → Except EngineFault Outcome × σ
  /-- Works on a list of images. -/
  assemble : List Image → Assembly → σ → Except EngineFault (List Image) × σ
  /-- The contents of a text file, or why there are none. -/
  readText : σ → String → Except String String
  /-- The bytes of a file, or why there are none. -/
  readBytes : σ → String → Except String (List UInt8)
  /-- The formats it knows. -/
  formats : List FormatEntry
  /-- The fonts it knows. -/
  fonts : List String

end Darkroom
