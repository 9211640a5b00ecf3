import Darkroom.Color.Basic
import Darkroom.Keyword.Basic

/-!
# Channel selections

Many operators act on a selection of the four channels.  A selection is written as words separated
by commas: channel names, aliases of them, or letters of `rgba`.
-/

namespace Darkroom

/-- A set of channels. -/
structure ChannelSet where
  /-- Red belongs to the set. -/
  red : Bool := false
  /-- Green belongs to the set. -/
  green : Bool := false
  /-- Blue belongs to the set. -/
  blue : Bool := false
  /-- Alpha belongs to the set. -/
  alpha : Bool := false
deriving DecidableEq, Repr

namespace ChannelSet

/-- No channel. -/
def empty : ChannelSet := {}

/-- All four channels. -/
def full : ChannelSet := ⟨true, true, true, true⟩

/-- The three color channels. -/
def rgb : ChannelSet := ⟨true, true, true, false⟩

instance : Inhabited ChannelSet := ⟨full⟩

/-- Whether a channel belongs to the set. -/
def contains (s : ChannelSet) : Channel → Bool
  | .red => s.red
  | .green => s.green
  | .blue => s.blue
  | .alpha => s.alpha

/-- The set of one channel. -/
def single : Channel → ChannelSet
  | .red => { red := true }
  | .green => { green := true }
  | .blue => { blue := true }
  | .alpha => { alpha := true }

/-- The channels of either set. -/
def union (s t : ChannelSet) : ChannelSet :=
  ⟨s.red || t.red, s.green || t.green, s.blue || t.blue, s.alpha || t.alpha⟩

/-- The union of a list of sets. -/
def unions (sets : List ChannelSet) : ChannelSet :=
  sets.foldl union empty

/-- Every channel of `t` belongs to `s`. -/
def includes (s t : ChannelSet) : Bool :=
  Channel.all.all fun k => !t.contains k || s.contains k

/-- The channels of the set, in order. -/
def members (s : ChannelSet) : List Channel :=
  Channel.all.filter s.contains

/-- The positions of the channels of the set, in order. -/
def indexes (s : ChannelSet) : List Nat :=
  s.members.map Channel.index

/-- The number of channels. -/
def count (s : ChannelSet) : Nat :=
  s.members.length

/-- The letters of the channels. -/
def text (s : ChannelSet) : String :=
  String.ofList (s.members.map Channel.letter)

/-- The channel of a letter of `rgba`. -/
def letter? : Char → Option ChannelSet
  | 'r' => some (single .red)
  | 'g' => some (single .green)
  | 'b' => some (single .blue)
  | 'a' => some (single .alpha)
  | _ => none

/-- The set a channel name or alias in lower case stands for. -/
def named? : String → Option ChannelSet
  | "all" | "default" => some full
  | "red" | "r" | "cyan" | "c" => some (single .red)
  | "green" | "g" | "magenta" | "m" => some (single .green)
  | "blue" | "b" | "yellow" | "y" => some (single .blue)
  | "alpha" | "a" | "opacity" | "o" | "matte" => some (single .alpha)
  | "gray" | "grey" | "k" => some (single .red)
  | _ => none

/-- The set a word stands for: a name, or letters of `rgba`. -/
def word? (word : List Char) : Option ChannelSet :=
  let word := Text.lower word
  (named? (String.ofList word)).orElse fun _ => (word.mapM letter?).map unions

/-- The words of a selection: the parts between commas that are not blank. -/
def words (text : List Char) : List (List Char) :=
  ((text.splitOn ',').map Text.trim).filter fun word => !word.isEmpty

/-- A selection of at least one channel. -/
def ofChars? (text : List Char) : Option ChannelSet :=
  (((words text).mapM word?).map unions).filter (· != empty)

/-- A selection of at least one channel, or the error that names the text. -/
def parse (text : String) : Except KeywordError ChannelSet :=
  match ofChars? text.toList with
  | some s => .ok s
  | none => .error ⟨"channel", text⟩

end ChannelSet
end Darkroom
