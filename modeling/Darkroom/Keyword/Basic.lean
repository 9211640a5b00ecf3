import Darkroom.Fault
import Darkroom.Text.Basic

/-!
# Keyword families

Many options take one word of a fixed family.  A family lists its values with the spelling each is
written in and the further spellings it is read from; case and surrounding blanks do not matter.
-/

namespace Darkroom

/-- A word that is not in its family. -/
structure KeywordError where
  /-- The name of the family. -/
  family : String
  /-- The word. -/
  value : String
deriving DecidableEq, Repr

namespace KeywordError

/-- The wording of the error. -/
def message (e : KeywordError) : String :=
  "unrecognized " ++ e.family ++ " type `" ++ e.value ++ "`"

/-- The fault it is reported as. -/
def toFault (e : KeywordError) : Fault :=
  .unrecognizedKeyword e.family e.value

end KeywordError

/-- A family of keywords. -/
class Keyword (κ : Type) where
  /-- The name of the family in error messages. -/
  family : String
  /-- Every value, in the order of listings. -/
  all : List κ
  /-- The spelling a value is written in. -/
  name : κ → String
  /-- Further spellings it is read from. -/
  aliases : κ → List String

namespace Keyword

variable {κ : Type} [Keyword κ]

/-- Whether a word spells a value. -/
def spells (word : String) (k : κ) : Bool :=
  sameWord word (name k) || (aliases k).any (sameWord word)

/-- The first value that a word spells. -/
def find? (word : String) : Option κ :=
  (all : List κ).find? (spells word)

/-- The value a text names. -/
def parse (text : String) : Except KeywordError κ :=
  let word := trimmed text
  match find? word with
  | some k => .ok k
  | none => .error ⟨family κ, word⟩

/-- The value a text names, if any. -/
def parse? (text : String) : Option κ :=
  find? (trimmed text)

variable (κ) in
/-- The spellings of all values, in the order of listings. -/
def names : List String :=
  (all : List κ).map name

end Keyword
end Darkroom
