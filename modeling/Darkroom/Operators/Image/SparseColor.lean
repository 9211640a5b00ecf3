import Darkroom.Operators.Image.Basic

/-!
# Colored places

The argument of the operator that computes colors from colored places: places and colors in turn,
separated by blanks and commas.  A color is a color text or one number for each selected channel.
-/

namespace Darkroom
namespace SparseColor

/-- The words of a text, which blanks and commas outside brackets separate. -/
def words (text : List Char) : List (List Char) :=
  go 0 [] text
where
  /-- The words of the rest, inside so many brackets, after the reversed start of a word. -/
  go (depth : Nat) (word : List Char) : List Char → List (List Char)
    | [] => if word.isEmpty then [] else [word.reverse]
    | c :: rest =>
        let inner := if c = '(' then depth + 1 else if c = ')' then depth - 1 else depth
        if depth = 0 ∧ Text.isListSeparator c then
          if word.isEmpty then go inner [] rest else word.reverse :: go inner [] rest
        else go inner (c :: word) rest

/-- Whether a word starts like a number. -/
def isNumeric : List Char → Bool
  | c :: _ => c.isDigit || c == '.' || c == '-' || c == '+'
  | [] => false

/-- Up to four values, filled up with zeros. -/
def fourValues (values : List Float) : List Float :=
  (values ++ [0.0, 0.0, 0.0, 0.0]).take 4

/-- The values of so many channels at the front of the words, and the other words. -/
def values? (channels : List Channel) (first : List Char) (rest : List (List Char)) :
    Option (List Float × List (List Char)) := do
  if isNumeric first then
    let x ← Decimal.number? first
    let more := channels.length - 1
    if rest.length < more then none
    else
      let others ← (rest.take more).mapM Decimal.number?
      some (fourValues (x :: others), rest.drop more)
  else
    let color ← Color.ofChars? first
    let values := channels.map fun k => (color.get k).toFloat / 255.0
    some (fourValues values, rest)

/-- The colored places that words write. -/
def points? (channels : List Channel) : Nat → List (List Char) → Option (List SparsePoint)
  | _, [] => some []
  | n + 1, x :: y :: first :: rest => do
      let x ← Decimal.number? x
      let y ← Decimal.number? y
      let (values, rest) ← values? channels first rest
      some ({ x, y, values } :: (← points? channels n rest))
  | _, _ => none

/-- The colored places that a text writes, at least one. -/
def parse (text : String) (channels : ChannelSet) : Except Fault (List SparsePoint) :=
  let channels := if channels.count = 0 then ChannelSet.rgb else channels
  let words := words text.toList
  match points? channels.members words.length words with
  | some (point :: points) => .ok (point :: points)
  | _ => .error (.invalidArgument text)

end SparseColor
end Darkroom
