import Darkroom.Instances

/-!
# Characters of option text

White space, letter case and the small cuts from which every argument grammar is built.  Text is
handled as a list of characters, so that each cut has its equations.
-/

namespace Darkroom
namespace Text

/-- The characters with the Unicode property `White_Space`. -/
def isBlank (c : Char) : Bool :=
  let n := c.toNat
  (9 ≤ n && n ≤ 13) || n == 0x20 || n == 0x85 || n == 0xA0 || n == 0x1680 ||
    (0x2000 ≤ n && n ≤ 0x200A) || n == 0x2028 || n == 0x2029 || n == 0x202F || n == 0x205F ||
    n == 0x3000

/-- The text without its leading blanks. -/
def trimStart (s : List Char) : List Char :=
  s.dropWhile isBlank

/-- The text without its trailing blanks. -/
def trimEnd (s : List Char) : List Char :=
  (s.reverse.dropWhile isBlank).reverse

/-- The text without the blanks around it. -/
def trim (s : List Char) : List Char :=
  trimEnd (trimStart s)

/-- ASCII letters in lower case; every other character is kept. -/
def lower (s : List Char) : List Char :=
  s.map Char.toLower

/-- Equality up to the case of ASCII letters. -/
def sameIgnoringCase (a b : List Char) : Bool :=
  lower a == lower b

/-- What follows `mark` when the text starts with it. -/
def after? : (mark text : List Char) → Option (List Char)
  | [], s => some s
  | _ :: _, [] => none
  | m :: ms, c :: s => if m = c then after? ms s else none

/-- What precedes `mark` when the text ends with it. -/
def before? (mark text : List Char) : Option (List Char) :=
  (after? mark.reverse text.reverse).map List.reverse

/-- The parts before and after the first occurrence of `mark`. -/
def cut? (mark : Char) : List Char → Option (List Char × List Char)
  | [] => none
  | c :: s =>
      if c = mark then some ([], s)
      else (cut? mark s).map fun (head, tail) => (c :: head, tail)

/-- The non-empty runs of characters between separators. -/
def fields (isSeparator : Char → Bool) (s : List Char) : List (List Char) :=
  (s.splitOnP isSeparator).filter (fun field => !field.isEmpty)

/-- Commas and blanks separate the items of a list of numbers. -/
def isListSeparator (c : Char) : Bool :=
  c == ',' || isBlank c

@[simp] theorem after?_append (mark rest : List Char) : after? mark (mark ++ rest) = some rest := by
  induction mark with
  | nil => rfl
  | cons m ms ih => simp [after?, ih]

/-- A text that starts with the mark is the mark followed by the rest. -/
theorem eq_append_of_after? {mark text rest : List Char} (found : after? mark text = some rest) :
    text = mark ++ rest := by
  induction mark generalizing text with
  | nil => simpa [after?] using found
  | cons m ms ih =>
      cases text with
      | nil => simp [after?] at found
      | cons c s =>
          by_cases same : m = c
          · subst same
            simp only [after?, if_true] at found
            simp [ih found]
          · simp [after?, same] at found

end Text

/-- Equality of two words up to the case of ASCII letters. -/
def sameWord (a b : String) : Bool :=
  Text.sameIgnoringCase a.toList b.toList

/-- The text without the blanks around it. -/
def trimmed (s : String) : String :=
  String.ofList (Text.trim s.toList)

/-- ASCII letters in lower case. -/
def lowered (s : String) : String :=
  String.ofList (Text.lower s.toList)

end Darkroom
