import Darkroom.ChannelSet
import Darkroom.Proofs.Text
import Mathlib.Data.Set.Basic

/-!
# Words of channel selections

A selection is written as words between commas.  A word is the name of a channel in one of several
color models, or a name of all channels, or a string of letters of channels; where it is both a name
and such a string it means the same as either.  What a text selects is the union over its words, so
that it depends on no more than the set of its words, and two texts joined by a comma select what
either selects.
-/

namespace Darkroom
namespace ChannelSet

/-! ## Channels of a set -/

/-- Every channel is on the list of all channels. -/
theorem mem_all
    (k : Channel) :
    k ∈ Channel.all := by
  cases k <;> decide

theorem mem_members_iff
    {channels : ChannelSet}
    {k : Channel} :
    k ∈ channels.members ↔ channels.contains k = true := by
  rw [members, List.mem_filter, and_iff_right (mem_all k)]

/-- A set is known by its channels. -/
theorem ext_contains
    {s t : ChannelSet}
    (same : ∀ k, s.contains k = true ↔ t.contains k = true) :
    s = t := by
  have red := Bool.eq_iff_iff.mpr (same .red)
  have green := Bool.eq_iff_iff.mpr (same .green)
  have blue := Bool.eq_iff_iff.mpr (same .blue)
  have alpha := Bool.eq_iff_iff.mpr (same .alpha)
  cases s
  cases t
  simp only [contains] at red green blue alpha
  rw [red, green, blue, alpha]

@[simp] theorem contains_union
    (s t : ChannelSet)
    (k : Channel) :
    (s.union t).contains k = (s.contains k || t.contains k) := by
  cases k <;> rfl

@[simp] theorem contains_empty
    (k : Channel) :
    empty.contains k = false := by
  cases k <;> rfl

theorem contains_full
    (k : Channel) :
    full.contains k = true := by
  cases k <;> rfl

theorem contains_single_iff
    {j k : Channel} :
    (single j).contains k = true ↔ k = j := by
  cases j <;> cases k <;> decide

theorem ne_empty_iff
    {s : ChannelSet} :
    s ≠ empty ↔ ∃ k, s.contains k = true := by
  constructor
  · intro nonempty
    by_contra none
    exact nonempty (ext_contains fun k => by simpa using not_exists.mp none k)
  · rintro ⟨k, inside⟩ rfl
    simp at inside

/-- All channels are selected when all are named. -/
theorem eq_full_iff
    {channels : ChannelSet} :
    channels = full ↔ ∀ k, channels.contains k = true := by
  constructor
  · rintro rfl
    exact contains_full
  · exact fun all => ext_contains fun k => iff_of_true (all k) (contains_full k)

/-- A channel belongs to a union of sets when it belongs to one of them. -/
theorem contains_unions
    (sets : List ChannelSet)
    (k : Channel) :
    (unions sets).contains k = true ↔ ∃ set ∈ sets, set.contains k = true := by
  have folded (start : ChannelSet) : (sets.foldl union start).contains k = true ↔
      start.contains k = true ∨ ∃ set ∈ sets, set.contains k = true := by
    induction sets generalizing start with
    | nil => simp
    | cons set rest inductionHypothesis => simp [inductionHypothesis, or_assoc]
  rw [unions, folded, contains_empty]
  simp

section Parts

variable {α : Type} {set? : α → Option ChannelSet}

theorem mapM_cons_eq_some_iff
    {part : α}
    {rest : List α}
    {sets : List ChannelSet} :
    (part :: rest).mapM set? = some sets ↔
      ∃ set, set? part = some set ∧ ∃ others, rest.mapM set? = some others ∧
        set :: others = sets := by
  simp [List.mapM_cons, Option.bind_eq_some_iff]

theorem exists_mapM_iff
    {parts : List α} :
    (∃ sets, parts.mapM set? = some sets) ↔ ∀ part ∈ parts, ∃ set, set? part = some set := by
  induction parts with
  | nil => simp
  | cons part rest inductionHypothesis =>
      rw [List.forall_mem_cons, ← inductionHypothesis]
      simp only [mapM_cons_eq_some_iff]
      constructor
      · rintro ⟨_, set, ofPart, others, ofRest, -⟩
        exact ⟨⟨set, ofPart⟩, others, ofRest⟩
      · rintro ⟨⟨set, ofPart⟩, others, ofRest⟩
        exact ⟨_, set, ofPart, others, ofRest, rfl⟩

/-- Parts stand for sets, each for the channels that it names. -/
theorem exists_contains_iff
    {parts : List α}
    {sets : List ChannelSet}
    (ofParts : parts.mapM set? = some sets)
    (k : Channel) :
    (∃ set ∈ sets, set.contains k = true) ↔
      ∃ part ∈ parts, ∃ set, set? part = some set ∧ set.contains k = true := by
  induction parts generalizing sets with
  | nil =>
      obtain rfl : [] = sets := by simpa using ofParts
      simp
  | cons part rest inductionHypothesis =>
      obtain ⟨set, ofPart, others, ofRest, rfl⟩ := mapM_cons_eq_some_iff.mp ofParts
      simp [inductionHypothesis ofRest, ofPart]

/-- Parts stand together for the union of their sets if each of them stands for one. -/
theorem unions_mapM_eq_some_iff
    {parts : List α}
    {s : ChannelSet} :
    (parts.mapM set?).map unions = some s ↔
      (∀ part ∈ parts, ∃ set, set? part = some set) ∧
        ∀ k, s.contains k = true ↔
          ∃ part ∈ parts, ∃ set, set? part = some set ∧ set.contains k = true := by
  rw [Option.map_eq_some_iff, ← exists_mapM_iff]
  constructor
  · rintro ⟨sets, ofParts, rfl⟩
    exact ⟨⟨sets, ofParts⟩, fun k =>
      (contains_unions sets k).trans (exists_contains_iff ofParts k)⟩
  · rintro ⟨⟨sets, ofParts⟩, contains⟩
    exact ⟨sets, ofParts, ext_contains fun k =>
      ((contains_unions sets k).trans (exists_contains_iff ofParts k)).trans (contains k).symm⟩

end Parts

/-! ## What a word spells -/

/-- The names of a channel: its own, and those that it has in other color models. -/
def namesOf : Channel → List String
  | .red => ["red", "r", "cyan", "c", "gray", "grey", "k"]
  | .green => ["green", "g", "magenta", "m"]
  | .blue => ["blue", "b", "yellow", "y"]
  | .alpha => ["alpha", "a", "opacity", "o", "matte"]

/-- The set of channels that a word in lower case spells. -/
inductive Spells : List Char → ChannelSet → Prop where
  /-- A name of all channels. -/
  | ofAll
      {word : List Char}
      (listed : String.ofList word ∈ ["all", "default"]) :
      Spells word full
  /-- A name of one channel. -/
  | ofName
      {word : List Char}
      {k : Channel}
      (listed : String.ofList word ∈ namesOf k) :
      Spells word (single k)
  /-- A string of letters of channels, in any order and number. -/
  | ofLetters
      {word : List Char}
      {s : ChannelSet}
      (letters : ∀ c ∈ word, c ∈ ['r', 'g', 'b', 'a'])
      (contains : ∀ k : Channel, s.contains k = true ↔ k.letter.toLower ∈ word) :
      Spells word s

theorem named?_eq_some_iff
    {name : String}
    {s : ChannelSet} :
    named? name = some s ↔
      name ∈ ["all", "default"] ∧ s = full ∨ ∃ k, name ∈ namesOf k ∧ s = single k := by
  constructor
  · intro named
    unfold named? at named
    split at named <;> cases named
    · exact .inl ⟨by decide, rfl⟩
    · exact .inl ⟨by decide, rfl⟩
    all_goals exact .inr ⟨_, by decide, rfl⟩
  · rintro (⟨listed, rfl⟩ | ⟨k, listed, rfl⟩)
    · simp only [List.mem_cons, List.not_mem_nil, or_false] at listed
      obtain rfl | rfl := listed <;> rfl
    · cases k <;> simp only [namesOf, List.mem_cons, List.not_mem_nil, or_false] at listed
      · obtain rfl | rfl | rfl | rfl | rfl | rfl | rfl := listed <;> rfl
      · obtain rfl | rfl | rfl | rfl := listed <;> rfl
      · obtain rfl | rfl | rfl | rfl := listed <;> rfl
      · obtain rfl | rfl | rfl | rfl | rfl := listed <;> rfl

theorem letter?_eq_some_iff
    {c : Char}
    {s : ChannelSet} :
    letter? c = some s ↔ ∃ k : Channel, k.letter.toLower = c ∧ s = single k := by
  constructor
  · intro found
    unfold letter? at found
    split at found <;> cases found
    · exact ⟨.red, rfl, rfl⟩
    · exact ⟨.green, rfl, rfl⟩
    · exact ⟨.blue, rfl, rfl⟩
    · exact ⟨.alpha, rfl, rfl⟩
  · rintro ⟨k, rfl, rfl⟩
    cases k <;> rfl

theorem exists_letter_iff
    {c : Char} :
    (∃ k : Channel, k.letter.toLower = c) ↔ c ∈ ['r', 'g', 'b', 'a'] := by
  simp only [List.mem_cons, List.not_mem_nil, or_false]
  constructor
  · rintro ⟨k, rfl⟩
    cases k <;> decide
  · rintro (rfl | rfl | rfl | rfl)
    · exact ⟨.red, rfl⟩
    · exact ⟨.green, rfl⟩
    · exact ⟨.blue, rfl⟩
    · exact ⟨.alpha, rfl⟩

theorem letter_inj
    {j k : Channel} :
    j.letter.toLower = k.letter.toLower ↔ j = k := by
  cases j <;> cases k <;> decide

/-- Letters stand together for the channels whose letters are among them. -/
theorem unions_letters_eq_some_iff
    {word : List Char}
    {s : ChannelSet} :
    (word.mapM letter?).map unions = some s ↔
      (∀ c ∈ word, c ∈ ['r', 'g', 'b', 'a']) ∧
        ∀ k : Channel, s.contains k = true ↔ k.letter.toLower ∈ word := by
  have stands (c : Char) : (∃ set, letter? c = some set) ↔ c ∈ ['r', 'g', 'b', 'a'] := by
    rw [← exists_letter_iff]
    simp only [letter?_eq_some_iff, exists_comm (α := ChannelSet), exists_and_left, exists_eq,
      and_true]
  have has (c : Char) (k : Channel) :
      (∃ set, letter? c = some set ∧ set.contains k = true) ↔ k.letter.toLower = c := by
    simp only [letter?_eq_some_iff]
    constructor
    · rintro ⟨_, ⟨j, rfl, rfl⟩, inside⟩
      rw [contains_single_iff.mp inside]
    · rintro rfl
      exact ⟨_, ⟨k, rfl, rfl⟩, contains_single_iff.mpr rfl⟩
  rw [unions_mapM_eq_some_iff]
  simp only [stands, has, exists_eq_right']

/-- A name that is a string of letters is the letter of the one channel that it names. -/
theorem eq_letter_of_named?
    {word : List Char}
    {s : ChannelSet}
    (named : named? (String.ofList word) = some s)
    (letters : ∀ c ∈ word, c ∈ ['r', 'g', 'b', 'a']) :
    ∃ k : Channel, word = [k.letter.toLower] ∧ s = single k := by
  have ofAll : ∀ name ∈ ["all", "default"], ¬ ∀ c ∈ name.toList, c ∈ ['r', 'g', 'b', 'a'] := by
    decide
  have ofName (k : Channel) : ∀ name ∈ namesOf k,
      (∀ c ∈ name.toList, c ∈ ['r', 'g', 'b', 'a']) → name.toList = [k.letter.toLower] := by
    cases k <;> decide
  rw [← String.toList_ofList (l := word)] at letters
  obtain ⟨listed, -⟩ | ⟨k, listed, rfl⟩ := named?_eq_some_iff.mp named
  · exact absurd letters (ofAll _ listed)
  · have single := ofName k _ listed letters
    rw [String.toList_ofList] at single
    exact ⟨k, single, rfl⟩

/-- A word stands for the set that it spells in lower case: where it can be read as a name and as
letters, both mean the same. -/
theorem word?_eq_some_iff
    {word : List Char}
    {s : ChannelSet} :
    word? word = some s ↔ Spells (Text.lower word) s := by
  have ofAll (listed : String.ofList (Text.lower word) ∈ ["all", "default"]) :
      named? (String.ofList (Text.lower word)) = some full :=
    named?_eq_some_iff.mpr (.inl ⟨listed, rfl⟩)
  have ofName {k : Channel} (listed : String.ofList (Text.lower word) ∈ namesOf k) :
      named? (String.ofList (Text.lower word)) = some (single k) :=
    named?_eq_some_iff.mpr (.inr ⟨k, listed, rfl⟩)
  rw [word?]
  cases named : named? (String.ofList (Text.lower word)) with
  | none =>
      rw [named] at ofAll ofName
      change ((Text.lower word).mapM letter?).map unions = some s ↔ _
      rw [unions_letters_eq_some_iff]
      constructor
      · rintro ⟨letters, contains⟩
        exact .ofLetters letters contains
      · intro spells
        cases spells with
        | ofAll listed => exact nomatch ofAll listed
        | ofName listed => exact nomatch ofName listed
        | ofLetters letters contains => exact ⟨letters, contains⟩
  | some t =>
      change some t = some s ↔ _
      constructor
      · rintro ⟨⟩
        obtain ⟨listed, rfl⟩ | ⟨k, listed, rfl⟩ := named?_eq_some_iff.mp named
        · exact .ofAll listed
        · exact .ofName listed
      · intro spells
        cases spells with
        | ofAll listed => exact named.symm.trans (ofAll listed)
        | ofName listed => exact named.symm.trans (ofName listed)
        | ofLetters letters contains =>
            obtain ⟨k, same, rfl⟩ := eq_letter_of_named? named letters
            refine congrArg some (ext_contains fun j => ?_)
            rw [contains_single_iff, contains, same, List.mem_singleton, letter_inj]

/-- A word that is not empty spells some channel. -/
theorem Spells.exists_contains
    {word : List Char}
    {s : ChannelSet}
    (spells : Spells word s)
    (nonempty : word ≠ []) :
    ∃ k, s.contains k = true := by
  cases spells with
  | ofAll => exact ⟨.red, rfl⟩
  | @ofName k => exact ⟨k, contains_single_iff.mpr rfl⟩
  | ofLetters letters contains =>
      obtain ⟨c, rest, rfl⟩ := List.exists_cons_of_ne_nil nonempty
      obtain ⟨k, rfl⟩ := exists_letter_iff.mpr (letters c List.mem_cons_self)
      exact ⟨k, (contains k).mpr List.mem_cons_self⟩

/-! ## What a text selects -/

theorem mem_words_iff
    {text word : List Char} :
    word ∈ words text ↔ ∃ piece ∈ text.splitOn ',', Text.trim piece = word ∧ word ≠ [] := by
  rw [words, List.mem_filter, List.mem_map, Bool.not_eq_true', List.isEmpty_eq_false_iff]
  constructor
  · rintro ⟨⟨piece, isPiece, same⟩, nonempty⟩
    exact ⟨piece, isPiece, same, nonempty⟩
  · rintro ⟨piece, isPiece, same, nonempty⟩
    exact ⟨⟨piece, isPiece, same⟩, nonempty⟩

/-- The words that a text stands for are taken together. -/
theorem ofChars?_eq_some_iff
    {text : List Char}
    {s : ChannelSet} :
    ofChars? text = some s ↔
      ((∀ word ∈ words text, ∃ set, word? word = some set) ∧
        ∀ k, s.contains k = true ↔
          ∃ word ∈ words text, ∃ set, word? word = some set ∧ set.contains k = true) ∧
      s ≠ empty := by
  rw [ofChars?, Option.filter_eq_some_iff, unions_mapM_eq_some_iff, bne_iff_ne]

theorem parse_eq_ok_iff_ofChars?
    {text : String}
    {s : ChannelSet} :
    parse text = .ok s ↔ ofChars? text.toList = some s := by
  rw [parse]
  cases ofChars? text.toList <;> simp

/-- A word of a text names a channel. -/
def Names (text : String) (k : Channel) : Prop :=
  ∃ word ∈ words text.toList, (word? word).any (·.contains k) = true

instance (text : String) : DecidablePred (Names text) :=
  fun _ => inferInstanceAs (Decidable (∃ word ∈ _, _))

/-- The channels of an accepted text are those that it names. -/
theorem contains_iff_names
    {text : String}
    {channels : ChannelSet}
    (accepted : parse text = .ok channels)
    (k : Channel) :
    channels.contains k = true ↔ Names text k := by
  obtain ⟨⟨-, contains⟩, -⟩ := ofChars?_eq_some_iff.mp (parse_eq_ok_iff_ofChars?.mp accepted)
  simp only [contains k, Names, Option.any_eq_true]

/-- The words of a text: its parts between commas that are not blank, without the blanks around them
and in lower case. -/
def wordSet (text : String) : Set (List Char) :=
  {word | ∃ piece ∈ text.toList.splitOn ',',
    (∃ c ∈ piece, Text.isBlank c = false) ∧ Text.lower (Text.trim piece) = word}

theorem mem_wordSet_iff
    {text : String}
    {word : List Char} :
    word ∈ wordSet text ↔ word ∈ (words text.toList).map Text.lower := by
  have blank (piece : List Char) :
      (∃ c ∈ piece, Text.isBlank c = false) ↔ Text.trim piece ≠ [] := by
    rw [Ne, Text.trim_eq_nil_iff]
    simp
  simp only [wordSet, Set.mem_ofPred_eq, blank, List.mem_map, mem_words_iff]
  constructor
  · rintro ⟨piece, isPiece, nonempty, rfl⟩
    exact ⟨_, ⟨piece, isPiece, rfl, nonempty⟩, rfl⟩
  · rintro ⟨_, ⟨piece, isPiece, rfl, nonempty⟩, rfl⟩
    exact ⟨piece, isPiece, nonempty, rfl⟩

/-- No word is empty. -/
theorem ne_nil_of_mem_wordSet
    {text : String}
    {word : List Char}
    (mem : word ∈ wordSet text) :
    word ≠ [] := by
  obtain ⟨trimmed, isWord, rfl⟩ := List.mem_map.mp (mem_wordSet_iff.mp mem)
  obtain ⟨-, -, -, nonempty⟩ := mem_words_iff.mp isWord
  simpa [Text.lower] using nonempty

/-- A comma puts the words of two texts together. -/
theorem wordSet_append
    (text text' : String) :
    wordSet (text ++ "," ++ text') = wordSet text ∪ wordSet text' := by
  have split : (text ++ "," ++ text').toList.splitOn ',' =
      text.toList.splitOn ',' ++ text'.toList.splitOn ',' := by
    rw [String.toList_append, String.toList_append, List.append_assoc]
    exact List.splitOn_append_cons_self ..
  ext word
  simp only [wordSet, split, List.mem_append, Set.mem_union, Set.mem_ofPred_eq, or_and_right,
    exists_or]

/-- Words select a set: there are some, each of them spells channels, and the set is their union. -/
structure Selects (words : Set (List Char)) (s : ChannelSet) : Prop where
  /-- There is a word. -/
  nonempty : words.Nonempty
  /-- Each word spells a set. -/
  known : ∀ word ∈ words, ∃ t, Spells word t
  /-- A channel is selected when a word spells it. -/
  contains_iff : ∀ k, s.contains k = true ↔
    ∃ word ∈ words, ∃ t, Spells word t ∧ t.contains k = true

/-- A text is read as what its words select. -/
theorem parse_eq_ok_iff
    {text : String}
    {s : ChannelSet} :
    parse text = .ok s ↔ Selects (wordSet text) s := by
  have each : (∀ word ∈ words text.toList, ∃ t, Spells (Text.lower word) t) ↔
      ∀ word ∈ wordSet text, ∃ t, Spells word t := by
    simp only [mem_wordSet_iff, List.forall_mem_map]
  have someWord (k : Channel) :
      (∃ word ∈ words text.toList, ∃ t, Spells (Text.lower word) t ∧ t.contains k = true) ↔
        ∃ word ∈ wordSet text, ∃ t, Spells word t ∧ t.contains k = true := by
    simp only [mem_wordSet_iff, List.mem_map, exists_exists_and_eq_and]
  rw [parse_eq_ok_iff_ofChars?, ofChars?_eq_some_iff]
  simp only [word?_eq_some_iff, each, someWord]
  constructor
  · rintro ⟨⟨known, contains⟩, nonempty⟩
    obtain ⟨k, inside⟩ := ne_empty_iff.mp nonempty
    obtain ⟨word, mem, -⟩ := (contains k).mp inside
    exact ⟨⟨word, mem⟩, known, contains⟩
  · rintro ⟨⟨word, mem⟩, known, contains⟩
    obtain ⟨t, spells⟩ := known word mem
    obtain ⟨k, inside⟩ := spells.exists_contains (ne_nil_of_mem_wordSet mem)
    exact ⟨⟨known, contains⟩, ne_empty_iff.mpr ⟨k, (contains k).mpr ⟨word, mem, t, spells, inside⟩⟩⟩

/-- Words select a set if there are some and each of them spells one. -/
theorem exists_selects
    {words : Set (List Char)}
    (nonempty : words.Nonempty)
    (known : ∀ word ∈ words, ∃ t, Spells word t) :
    ∃ s, Selects words s := by
  classical
  let has (k : Channel) : Bool := decide (∃ word ∈ words, ∃ t, Spells word t ∧ t.contains k = true)
  refine ⟨⟨has .red, has .green, has .blue, has .alpha⟩, nonempty, known, fun k => ?_⟩
  cases k <;> exact decide_eq_true_iff

theorem Selects.union
    {words words' : Set (List Char)}
    {s t : ChannelSet}
    (selects : Selects words s)
    (selects' : Selects words' t) :
    Selects (words ∪ words') (s.union t) where
  nonempty := selects.nonempty.inl
  known word mem := mem.elim (selects.known word) (selects'.known word)
  contains_iff k := by
    rw [contains_union, Bool.or_eq_true, selects.contains_iff, selects'.contains_iff]
    simp only [Set.mem_union, or_and_right, exists_or]

/-! ## The text of a set -/

/-- A set that is not empty is written as one word of letters. -/
theorem words_text
    {s : ChannelSet}
    (nonempty : s ≠ empty) :
    words s.text.toList = [s.members.map Channel.letter] := by
  have letter (c : Char) (mem : c ∈ s.members.map Channel.letter) :
      c ≠ ',' ∧ Text.isBlank c = false := by
    obtain ⟨k, -, rfl⟩ := List.mem_map.mp mem
    cases k <;> decide
  have unbroken : ',' ∉ s.members.map Channel.letter := fun mem => (letter ',' mem).1 rfl
  have solid : Text.trim (s.members.map Channel.letter) = s.members.map Channel.letter :=
    Text.trim_of_solid fun c mem => (letter c mem).2
  have some : s.members.map Channel.letter ≠ [] := by
    obtain ⟨k, inside⟩ := ne_empty_iff.mp nonempty
    exact List.ne_nil_of_mem (List.mem_map_of_mem (mem_members_iff.mpr inside))
  rw [text, String.toList_ofList, words, List.splitOn_eq_singleton unbroken]
  simp [solid, some]

/-- The letters of a set spell it. -/
theorem spells_letters
    (s : ChannelSet) :
    Spells (Text.lower (s.members.map Channel.letter)) s := by
  rw [Text.lower, List.map_map]
  refine .ofLetters (fun c mem => ?_) fun k => ?_
  · obtain ⟨k, -, rfl⟩ := List.mem_map.mp mem
    exact exists_letter_iff.mp ⟨k, rfl⟩
  · rw [← mem_members_iff, List.mem_map]
    constructor
    · exact fun mem => ⟨k, mem, rfl⟩
    · rintro ⟨j, mem, same⟩
      exact letter_inj.mp same ▸ mem

/-- The text of a set is read back as the set, unless it is empty. -/
theorem parse_text_iff
    {s : ChannelSet} :
    parse s.text = .ok s ↔ s ≠ empty := by
  rw [parse_eq_ok_iff_ofChars?, ofChars?_eq_some_iff]
  refine ⟨And.right, fun nonempty => ⟨?_, nonempty⟩⟩
  have read : word? (s.members.map Channel.letter) = some s :=
    word?_eq_some_iff.mpr (spells_letters s)
  rw [words_text nonempty]
  simp [read]

/-! ## Positions of channels -/

theorem mem_indexes_iff
    {s : ChannelSet}
    {i : Nat} :
    i ∈ s.indexes ↔ ∃ k, s.contains k = true ∧ k.index = i := by
  simp only [indexes, List.mem_map, mem_members_iff]

theorem pairwise_indexes
    (s : ChannelSet) :
    s.indexes.Pairwise (· < ·) := by
  have all : (Channel.all.map Channel.index).Pairwise (· < ·) := by decide
  exact all.sublist (List.filter_sublist.map _)

theorem count_eq
    (s : ChannelSet) :
    s.count = s.red.toNat + s.green.toNat + s.blue.toNat + s.alpha.toNat := by
  rcases s with ⟨_ | _, _ | _, _ | _, _ | _⟩ <;> rfl

/-- A text is read as the union of what its words spell, and is refused if it has no words or one
that spells nothing.  So no more than the set of words matters, texts joined by a comma select what
either selects, and the text of a selection is read as the selection.  Its positions are those of
its channels, ascending, as many as there are channels. -/
theorem selections_are_unions_of_words :
    (∀ text, (∃ s, parse text = .ok s) ↔
      (wordSet text).Nonempty ∧ ∀ word ∈ wordSet text, ∃ s, Spells word s) ∧
    (∀ text s, parse text = .ok s → ∀ k, s.contains k = true ↔
      ∃ word ∈ wordSet text, ∃ t, Spells word t ∧ t.contains k = true) ∧
    (∀ text text', wordSet text = wordSet text' →
      ∀ s, parse text = .ok s ↔ parse text' = .ok s) ∧
    (∀ text text' s t, parse text = .ok s → parse text' = .ok t →
      parse (text ++ "," ++ text') = .ok (s.union t)) ∧
    (∀ text s, parse text = .ok s → s ≠ empty) ∧
    (∀ s, s ≠ empty → parse s.text = .ok s) ∧
    ∀ s : ChannelSet, (∀ i, i ∈ s.indexes ↔ ∃ k, s.contains k = true ∧ k.index = i) ∧
      s.indexes.Pairwise (· < ·) ∧ s.indexes.length = s.count ∧
      s.count = s.red.toNat + s.green.toNat + s.blue.toNat + s.alpha.toNat := by
  refine ⟨fun text => ⟨?_, ?_⟩, fun text s accepted => ?_, fun text text' same s => ?_,
    fun text text' s t accepted accepted' => ?_, fun text s accepted => ?_,
    fun s => parse_text_iff.mpr,
    fun s => ⟨fun i => mem_indexes_iff, pairwise_indexes s, ?_, count_eq s⟩⟩
  · rintro ⟨s, accepted⟩
    have selects := parse_eq_ok_iff.mp accepted
    exact ⟨selects.nonempty, selects.known⟩
  · rintro ⟨nonempty, known⟩
    obtain ⟨s, selects⟩ := exists_selects nonempty known
    exact ⟨s, parse_eq_ok_iff.mpr selects⟩
  · exact (parse_eq_ok_iff.mp accepted).contains_iff
  · rw [parse_eq_ok_iff, parse_eq_ok_iff, same]
  · rw [parse_eq_ok_iff, wordSet_append]
    exact (parse_eq_ok_iff.mp accepted).union (parse_eq_ok_iff.mp accepted')
  · exact (ofChars?_eq_some_iff.mp (parse_eq_ok_iff_ofChars?.mp accepted)).2
  · exact List.length_map _

/-- A name from another color model, letters and blanks: neither order nor repetition matters, and
behind a comma more channels are selected. -/
theorem cyan_and_letters_selected :
    let redBlueAlpha : ChannelSet := ⟨true, false, true, true⟩
    parse "Cyan, AB" = .ok redBlueAlpha ∧ parse " m,,green" = .ok (single .green) ∧
      wordSet "Cyan, AB" = wordSet "ab,CYAN ,,ab" ∧ parse "ab,CYAN ,,ab" = .ok redBlueAlpha ∧
      parse ("Cyan, AB" ++ "," ++ " m,,green") = .ok full ∧ redBlueAlpha ≠ empty ∧
      parse redBlueAlpha.text = .ok redBlueAlpha := by
  intro redBlueAlpha
  have first : parse "Cyan, AB" = .ok redBlueAlpha := by decide
  have second : parse " m,,green" = .ok (single .green) := by decide
  have same : wordSet "Cyan, AB" = wordSet "ab,CYAN ,,ab" := by
    have words : (words "Cyan, AB".toList).map Text.lower = ["cyan".toList, "ab".toList] := by
      decide
    have words' : (ChannelSet.words "ab,CYAN ,,ab".toList).map Text.lower =
        ["ab".toList, "cyan".toList, "ab".toList] := by
      decide
    ext word
    rw [mem_wordSet_iff, mem_wordSet_iff, words, words']
    simp only [List.mem_cons, List.not_mem_nil, or_false]
    grind
  obtain ⟨-, -, ofSame, ofBoth, nonempty, ofText, -⟩ := selections_are_unions_of_words
  exact ⟨first, second, same, (ofSame _ _ same _).mp first, ofBoth _ _ _ _ first second,
    nonempty _ _ first, ofText _ (nonempty _ _ first)⟩

end ChannelSet
end Darkroom
