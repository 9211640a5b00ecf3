import Darkroom.Text.Basic

/-!
# Quoted texts in TOML

Four kinds of quotes: a double quote knows escapes, a single quote does not, and three quotes of
either kind span lines.  What is read here follows the opening quote and ends with the closing one;
a line ends with a line feed alone.
-/

namespace Darkroom
namespace Toml
namespace Quoted

/-- A character that may stand in a text or a comment: no control character but the tab. -/
def isPlain (c : Char) : Bool :=
  c == '\t' || (32 ≤ c.toNat && c.toNat != 127)

/-- The character that an escape letter stands for. -/
def escaped? : Char → Option Char
  | 'b' => some '\x08'
  | 't' => some '\t'
  | 'n' => some '\n'
  | 'f' => some '\x0c'
  | 'r' => some '\r'
  | '"' => some '"'
  | '\\' => some '\\'
  | _ => none

/-- The value of a hexadecimal digit. -/
def nibble? (c : Char) : Option Nat :=
  if c.isDigit then some (c.toNat - 48)
  else if 'a' ≤ c ∧ c ≤ 'f' then some (c.toNat - 87)
  else if 'A' ≤ c ∧ c ≤ 'F' then some (c.toNat - 55)
  else none

/-- The character with a hexadecimal code. -/
def ofCode? (digits : List Char) : Option Char := do
  let n ← digits.foldlM (fun n c => (nibble? c).map (16 * n + ·)) 0
  if n.isValidChar then some (Char.ofNat n) else none

/-- A character in front of the rest of a text, if both are there. -/
def front? (c? : Option Char) (rest? : Option (List Char × List Char)) :
    Option (List Char × List Char) := do
  let c ← c?
  let (text, rest) ← rest?
  some (c :: text, rest)

/-- A plain character in front of the rest of a text. -/
def plainFront? (c : Char) (rest? : Option (List Char × List Char)) :
    Option (List Char × List Char) :=
  if isPlain c then front? (some c) rest? else none

/-- A text in double quotes. -/
def basic? : List Char → Option (List Char × List Char)
  | [] => none
  | '"' :: rest => some ([], rest)
  | '\\' :: 'u' :: a :: b :: c :: d :: rest => front? (ofCode? [a, b, c, d]) (basic? rest)
  | '\\' :: 'U' :: a :: b :: c :: d :: e :: f :: g :: h :: rest =>
      front? (ofCode? [a, b, c, d, e, f, g, h]) (basic? rest)
  | '\\' :: c :: rest => front? (escaped? c) (basic? rest)
  | ['\\'] => none
  | c :: rest => plainFront? c (basic? rest)

/-- A text in single quotes. -/
def literal? : List Char → Option (List Char × List Char)
  | [] => none
  | '\'' :: rest => some ([], rest)
  | c :: rest => plainFront? c (literal? rest)

/-- Where the reading of a text of several lines stands. -/
inductive Place where
  /-- Within the text. -/
  | within
  /-- After a backslash, before the end of its line. -/
  | beforeBreak
  /-- After a backslash and the end of its line, where blanks and line ends are dropped. -/
  | afterBreak
deriving DecidableEq, Repr

/-- A text in three double quotes.  Up to two quotes may stand in front of the closing three; a
backslash at the end of a line drops all blanks up to the next character. -/
def basicLines? : Place → List Char → Option (List Char × List Char)
  | _, [] => none
  | .beforeBreak, c :: rest =>
      if c = ' ' ∨ c = '\t' then basicLines? .beforeBreak rest
      else if c = '\n' then basicLines? .afterBreak rest
      else none
  | .afterBreak, ' ' :: rest | .afterBreak, '\t' :: rest | .afterBreak, '\n' :: rest =>
      basicLines? .afterBreak rest
  | _, '"' :: '"' :: '"' :: '"' :: '"' :: rest => some (['"', '"'], rest)
  | _, '"' :: '"' :: '"' :: '"' :: rest => some (['"'], rest)
  | _, '"' :: '"' :: '"' :: rest => some ([], rest)
  | _, '\\' :: 'u' :: a :: b :: c :: d :: rest =>
      front? (ofCode? [a, b, c, d]) (basicLines? .within rest)
  | _, '\\' :: 'U' :: a :: b :: c :: d :: e :: f :: g :: h :: rest =>
      front? (ofCode? [a, b, c, d, e, f, g, h]) (basicLines? .within rest)
  | _, '\\' :: '\n' :: rest => basicLines? .afterBreak rest
  | _, '\\' :: ' ' :: rest | _, '\\' :: '\t' :: rest => basicLines? .beforeBreak rest
  | _, '\\' :: c :: rest => front? (escaped? c) (basicLines? .within rest)
  | _, ['\\'] => none
  | _, '\n' :: rest => front? (some '\n') (basicLines? .within rest)
  | _, c :: rest => plainFront? c (basicLines? .within rest)
termination_by _ s => s.length

/-- A text in three single quotes. -/
def literalLines? : List Char → Option (List Char × List Char)
  | [] => none
  | '\'' :: '\'' :: '\'' :: '\'' :: '\'' :: rest => some (['\'', '\''], rest)
  | '\'' :: '\'' :: '\'' :: '\'' :: rest => some (['\''], rest)
  | '\'' :: '\'' :: '\'' :: rest => some ([], rest)
  | '\n' :: rest => front? (some '\n') (literalLines? rest)
  | c :: rest => plainFront? c (literalLines? rest)

/-- The text without a line end at its start. -/
def dropBreak : List Char → List Char
  | '\n' :: rest => rest
  | s => s

/-- A quoted text on one line and what follows. -/
def line? : List Char → Option (List Char × List Char)
  | '"' :: rest => basic? rest
  | '\'' :: rest => literal? rest
  | _ => none

/-- A quoted text of any kind and what follows. -/
def text? : List Char → Option (List Char × List Char)
  | '"' :: '"' :: '"' :: rest => basicLines? .within (dropBreak rest)
  | '\'' :: '\'' :: '\'' :: rest => literalLines? (dropBreak rest)
  | s => line? s

end Quoted
end Toml
end Darkroom
