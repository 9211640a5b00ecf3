import Darkroom.Operators.Image.SparseColor
import Darkroom.Proofs.Color.Forms
import Mathlib.Data.List.Forall2

/-!
# Written places

How a list of colored places is written is stated here on its own: for each place two numbers, and
behind them a color or one number for each channel, all of it separated by blanks and commas.  What
is written in this way is read as the places that it writes, whatever blanks and commas stand inside
the brackets of a color.
-/

namespace Darkroom
namespace SparseColor

open Text

/-! ## Words -/

/-- Every separator in the text stands inside brackets, with so many of them open in front of it. -/
def UnbrokenAt (depth : Nat) (s : List Char) : Prop :=
  ∀ before c behind, s = before ++ c :: behind → isListSeparator c → openBrackets depth before ≠ 0

/-- Every separator in the text stands inside brackets. -/
def Unbroken (s : List Char) : Prop :=
  UnbrokenAt 0 s

/-- Words with separators between any two of them. -/
inductive Separates : List (List Char) → List Char → Prop
  | single
      (word : List Char) :
      Separates [word] word
  | cons
      (word : List Char)
      {gap text : List Char}
      {words : List (List Char)}
      (nonempty : gap ≠ [])
      (separators : ∀ c ∈ gap, isListSeparator c)
      (others : Separates words text) :
      Separates (word :: words) (word ++ gap ++ text)

/-- A word that ends where its separators begin. -/
structure IsWord (s : List Char) : Prop where
  /-- It has characters. -/
  nonempty : s ≠ []
  /-- No separator cuts it. -/
  unbroken : Unbroken s
  /-- It closes the brackets that it opens. -/
  closed : openBrackets 0 s = 0

theorem unbrokenAt_cons_iff
    {depth : Nat}
    {c : Char}
    {s : List Char} :
    UnbrokenAt depth (c :: s) ↔
      (isListSeparator c → depth ≠ 0) ∧ UnbrokenAt (bracketsBehind depth c) s := by
  constructor
  · intro unbroken
    refine ⟨fun separator => unbroken [] c s rfl separator, ?_⟩
    rintro before d behind rfl separator
    exact unbroken (c :: before) d behind rfl separator
  · rintro ⟨first, rest⟩ before d behind cut separator
    cases before with
    | nil =>
        obtain ⟨rfl, rfl⟩ := List.cons.inj cut
        exact first separator
    | cons e before =>
        obtain ⟨rfl, rfl⟩ := List.cons.inj cut
        exact rest before d behind rfl separator

/-- A text is searched for separators outside brackets from its start. -/
def decidableUnbrokenAt : (depth : Nat) → (s : List Char) → Decidable (UnbrokenAt depth s)
  | _, [] => .isTrue fun before _ _ cut _ => absurd cut (by simp)
  | depth, c :: s =>
      have := decidableUnbrokenAt (bracketsBehind depth c) s
      decidable_of_iff _ unbrokenAt_cons_iff.symm

instance : DecidablePred Unbroken :=
  decidableUnbrokenAt 0

/-- A character that ends no word is taken into the word. -/
theorem go_cons_of_unbroken
    {depth : Nat}
    {c : Char}
    (inside : isListSeparator c → depth ≠ 0)
    (word rest : List Char) :
    words.go depth word (c :: rest) = words.go (bracketsBehind depth c) (c :: word) rest := by
  rw [words.go, bracketsBehind]
  exact if_neg fun ends => inside ends.2 ends.1

theorem go_append_of_unbroken
    {depth : Nat}
    {s : List Char}
    (unbroken : UnbrokenAt depth s)
    (word rest : List Char) :
    words.go depth word (s ++ rest) =
      words.go (openBrackets depth s) (s.reverse ++ word) rest := by
  induction s generalizing depth word with
  | nil => rfl
  | cons c s inductionHypothesis =>
      obtain ⟨inside, unbroken⟩ := unbrokenAt_cons_iff.mp unbroken
      rw [List.cons_append, go_cons_of_unbroken inside, inductionHypothesis unbroken,
        openBrackets_cons, List.reverse_cons, List.append_assoc, List.singleton_append]

/-- A separator outside brackets ends the word in front of it, if there is one. -/
theorem go_cons_of_isListSeparator
    {c : Char}
    (separator : isListSeparator c)
    (word rest : List Char) :
    words.go 0 word (c :: rest) =
      if word.isEmpty then words.go 0 [] rest else word.reverse :: words.go 0 [] rest := by
  have noBracket : c ≠ '(' ∧ c ≠ ')' := by
    constructor <;> rintro rfl <;> exact absurd separator (by decide)
  rw [words.go]
  simp only [separator, and_self, if_true, noBracket.1, noBracket.2, if_false]

/-- Separators in front of a word mean nothing. -/
theorem go_separators
    {gap : List Char}
    (separators : ∀ c ∈ gap, isListSeparator c)
    (rest : List Char) :
    words.go 0 [] (gap ++ rest) = words.go 0 [] rest := by
  induction gap with
  | nil => rfl
  | cons c gap inductionHypothesis =>
      obtain ⟨separator, others⟩ := List.forall_mem_cons.mp separators
      rw [List.cons_append, go_cons_of_isListSeparator separator]
      exact inductionHypothesis others

/-- Separators end the word in front of them. -/
theorem go_ends
    {word gap : List Char}
    (nonempty : word ≠ [])
    (gapNonempty : gap ≠ [])
    (separators : ∀ c ∈ gap, isListSeparator c)
    (rest : List Char) :
    words.go 0 word (gap ++ rest) = word.reverse :: words.go 0 [] rest := by
  cases gap with
  | nil => exact absurd rfl gapNonempty
  | cons c gap =>
      obtain ⟨separator, others⟩ := List.forall_mem_cons.mp separators
      rw [List.cons_append, go_cons_of_isListSeparator separator, go_separators others]
      exact if_neg (by simpa using nonempty)

/-- Separated words are found again. -/
theorem words_of_separates
    {text : List Char}
    {parts : List (List Char)}
    (areWords : ∀ part ∈ parts, IsWord part)
    (separates : Separates parts text) :
    words text = parts := by
  rw [words]
  induction separates with
  | single word =>
      have isWord := areWords word List.mem_cons_self
      have read := go_append_of_unbroken isWord.unbroken [] []
      rw [List.append_nil, List.append_nil, isWord.closed] at read
      rw [read, words.go]
      simp [isWord.nonempty]
  | @cons word gap text words nonempty separators _ inductionHypothesis =>
      obtain ⟨isWord, others⟩ := List.forall_mem_cons.mp areWords
      rw [List.append_assoc, go_append_of_unbroken isWord.unbroken, isWord.closed,
        List.append_nil, go_ends (by simpa using isWord.nonempty) nonempty separators,
        List.reverse_reverse, inductionHypothesis others]

/-! ## Places -/

/-- Values with zeros behind them, four in all. -/
def padded (values : List Float) : List Float :=
  values ++ List.replicate (4 - values.length) 0.0

/-- How the values of the channels are written: by a color in any form that no separator cuts, each
value the part of 255 that the color has in the channel, or by one number for each channel. -/
inductive WritesValues (channels : List Channel) : List (List Char) → List Float → Prop
  | color
      {text : List Char}
      {c : Color}
      (unbroken : Unbroken text)
      (read : Color.parse (String.ofList text) = .ok c) :
      WritesValues channels [text] (channels.map fun k => (c.get k).toFloat / 255.0)
  | numbers
      {texts : List (List Char)}
      {values : List Float}
      (written : List.Forall₂ Decimal.WritesNumber texts values)
      (counted : values.length = channels.length) :
      WritesValues channels texts values

/-- How a colored place is written: two numbers for the place, then the values. -/
inductive WritesPoint (channels : List Channel) : List (List Char) → SparsePoint → Prop
  | intro
      {across down : List Char}
      {texts : List (List Char)}
      {x y : Float}
      {values : List Float}
      (acrossWritten : Decimal.WritesNumber across x)
      (downWritten : Decimal.WritesNumber down y)
      (valuesWritten : WritesValues channels texts values) :
      WritesPoint channels (across :: down :: texts) { x, y, values := padded values }

theorem fourValues_eq_padded
    {values : List Float}
    (few : values.length ≤ 4) :
    fourValues values = padded values := by
  match values, few with
  | [], _ => rfl
  | [_], _ => rfl
  | [_, _], _ => rfl
  | [_, _, _], _ => rfl
  | [_, _, _, _], _ => rfl

/-- A number starts like a number. -/
theorem isNumeric_of_writesNumber
    {s : List Char}
    {x : Float}
    (written : Decimal.WritesNumber s x) :
    isNumeric s := by
  cases written with
  | plain written =>
      obtain ⟨first, rest, rfl, digit | rfl⟩ := written.exists_cons
      · simp [isNumeric, digit]
      · rfl
  | plus _ => rfl
  | minus _ => rfl

theorem isWord_of_writesNumber
    {s : List Char}
    {x : Float}
    (written : Decimal.WritesNumber s x) :
    IsWord s := by
  have read := Decimal.number?_of_writesNumber written
  refine ⟨?_, ?_, (Decimal.bracketless_of_number? read).openBrackets_eq 0⟩
  · rintro rfl
    exact absurd (isNumeric_of_writesNumber written) (by decide)
  · rintro before c behind rfl separator
    have isNumberChar := Decimal.number?_alphabet read c (by simp)
    have noComma : c ≠ ',' := by
      rintro rfl
      exact absurd isNumberChar (by decide)
    simp [isListSeparator, noComma, Decimal.not_blank_of_isNumberChar isNumberChar] at separator

/-- A color that no separator cuts starts with the mark of hexadecimal or with a letter. -/
theorem exists_cons_of_color
    {s : List Char}
    {c : Color}
    (unbroken : Unbroken s)
    (read : Color.ofChars? s = some c) :
    ∃ first rest, s = first :: rest ∧ (first = '#' ∨ first.isAlpha) := by
  have hasForm := Color.hasForm_of_ofChars? read
  cases s with
  | nil =>
      obtain ⟨first, rest, same, -⟩ := hasForm.exists_cons
      cases same
  | cons first rest =>
      have solid : isBlank first = false := by
        have noSeparator := (unbrokenAt_cons_iff.mp unbroken).1
        simp only [isListSeparator, ne_eq, not_true_eq_false, imp_false, Bool.or_eq_true, not_or,
          Bool.not_eq_true] at noSeparator
        exact noSeparator.2
      rw [trim_cons solid] at hasForm
      obtain ⟨lowered, _, same, start⟩ := hasForm.exists_cons
      obtain ⟨rfl, -⟩ := List.cons.inj same
      exact ⟨first, rest, rfl, start.imp (eq_of_toLower_eq (by decide)) isAlpha_of_toLower⟩

theorem isWord_of_color
    {s : List Char}
    {c : Color}
    (unbroken : Unbroken s)
    (read : Color.ofChars? s = some c) :
    IsWord s := by
  refine ⟨?_, unbroken, Color.openBrackets_of_ofChars? read⟩
  obtain ⟨_, _, rfl, -⟩ := exists_cons_of_color unbroken read
  exact List.cons_ne_nil _ _

/-- No color starts like a number. -/
theorem not_isNumeric_of_color
    {s : List Char}
    {c : Color}
    (unbroken : Unbroken s)
    (read : Color.ofChars? s = some c) :
    isNumeric s = false := by
  obtain ⟨first, rest, rfl, rfl | letter⟩ := exists_cons_of_color unbroken read
  · rfl
  · have noSign : first ≠ '.' ∧ first ≠ '-' ∧ first ≠ '+' := by
      refine ⟨?_, ?_, ?_⟩ <;> rintro rfl <;> exact absurd letter (by decide)
    simp [isNumeric, isDigit_of_isAlpha letter, noSign]

theorem mapM_number?_of_writesNumber
    {texts : List (List Char)}
    {values : List Float}
    (written : List.Forall₂ Decimal.WritesNumber texts values) :
    texts.mapM Decimal.number? = some values := by
  induction written with
  | nil => rfl
  | cons first _ inductionHypothesis =>
      rw [List.mapM_cons, Decimal.number?_of_writesNumber first, inductionHypothesis]
      rfl

theorem ofChars?_of_parse
    {s : List Char}
    {c : Color}
    (read : Color.parse (String.ofList s) = .ok c) :
    Color.ofChars? s = some c := by
  rw [Color.parse, String.toList_ofList] at read
  split at read
  · next found => rw [found, Except.ok.inj read]
  · cases read

theorem isWord_of_writesValues
    {channels : List Channel}
    {texts : List (List Char)}
    {values : List Float}
    (written : WritesValues channels texts values) :
    ∀ text ∈ texts, IsWord text := by
  cases written with
  | color unbroken read =>
      simpa using isWord_of_color unbroken (ofChars?_of_parse read)
  | numbers written _ =>
      have areWords : List.Forall₂ (fun text x => IsWord text ∧ Decimal.WritesNumber text x)
          texts values :=
        written.imp fun _ _ written => ⟨isWord_of_writesNumber written, written⟩
      exact ((List.forall₂_and_left _ _).mp areWords).1

/-- Values are read from the front of the words, and the other words are left. -/
theorem values?_of_writesValues
    {channels : List Channel}
    {texts : List (List Char)}
    {values : List Float}
    (selected : channels ≠ [])
    (few : channels.length ≤ 4)
    (written : WritesValues channels texts values)
    (rest : List (List Char)) :
    ∃ first others, texts = first :: others ∧
      values? channels first (others ++ rest) = some (padded values, rest) := by
  cases written with
  | @color text c unbroken read =>
      have found := ofChars?_of_parse read
      refine ⟨text, [], rfl, ?_⟩
      rw [values?, not_isNumeric_of_color unbroken found, found,
        ← fourValues_eq_padded (by simpa using few)]
      rfl
  | numbers written counted =>
      cases written with
      | nil => exact absurd (List.length_eq_zero_iff.mp counted.symm) selected
      | @cons first x others values firstWritten othersWritten =>
          refine ⟨first, others, rfl, ?_⟩
          have more : channels.length - 1 = others.length := by
            rw [othersWritten.length_eq, ← counted, List.length_cons, Nat.add_sub_cancel]
          have padding : fourValues (x :: values) = padded (x :: values) :=
            fourValues_eq_padded (counted ▸ few)
          simp [values?, isNumeric_of_writesNumber firstWritten,
            Decimal.number?_of_writesNumber firstWritten, more,
            mapM_number?_of_writesNumber othersWritten, padding]

/-- Places are read one after another. -/
theorem points?_of_writesPoints
    {channels : List Channel}
    {groups : List (List (List Char))}
    {points : List SparsePoint}
    (selected : channels ≠ [])
    (few : channels.length ≤ 4)
    (written : List.Forall₂ (WritesPoint channels) groups points)
    {fuel : Nat}
    (enough : groups.length ≤ fuel) :
    points? channels fuel groups.flatten = some points := by
  induction written generalizing fuel with
  | nil => cases fuel <;> rfl
  | @cons group point groups points first _ inductionHypothesis =>
      obtain ⟨fuel, rfl⟩ := Nat.exists_eq_add_one_of_ne_zero
        (Nat.ne_of_gt (Nat.lt_of_lt_of_le (Nat.succ_pos _) enough))
      obtain ⟨acrossWritten, downWritten, valuesWritten⟩ := first
      obtain ⟨text, others, rfl, read⟩ :=
        values?_of_writesValues selected few valuesWritten groups.flatten
      have others := inductionHypothesis (Nat.le_of_succ_le_succ enough)
      simp [points?, Decimal.number?_of_writesNumber acrossWritten,
        Decimal.number?_of_writesNumber downWritten, read, others]

theorem isWord_of_writesPoints
    {channels : List Channel}
    {groups : List (List (List Char))}
    {points : List SparsePoint}
    (written : List.Forall₂ (WritesPoint channels) groups points) :
    (∀ word ∈ groups.flatten, IsWord word) ∧ groups.length ≤ groups.flatten.length := by
  induction written with
  | nil => simp
  | @cons group point groups points first _ inductionHypothesis =>
      obtain ⟨areWords, count⟩ := inductionHypothesis
      obtain ⟨acrossWritten, downWritten, valuesWritten⟩ := first
      have group := List.forall_mem_cons.mpr ⟨isWord_of_writesNumber acrossWritten,
        List.forall_mem_cons.mpr ⟨isWord_of_writesNumber downWritten,
          isWord_of_writesValues valuesWritten⟩⟩
      refine ⟨List.forall_mem_append.mpr ⟨group, areWords⟩, ?_⟩
      simp only [List.flatten_cons, List.length_append, List.length_cons]
      omega

theorem members_ne_nil
    {channels : ChannelSet}
    (selected : channels ≠ .empty) :
    channels.members ≠ [] := by
  obtain ⟨_ | _, _ | _, _ | _, _ | _⟩ := channels
  · exact absurd rfl selected
  all_goals exact List.cons_ne_nil _ _

/-- Places in their written form are read one for one, in order.  For every text there is at least
one place, or the error names the whole text. -/
theorem written_places_are_read :
    (∀ (channels : ChannelSet) (groups : List (List (List Char))) (points : List SparsePoint)
        (text : String), channels ≠ .empty → points ≠ [] →
        List.Forall₂ (WritesPoint channels.members) groups points →
        Separates groups.flatten text.toList → parse text channels = .ok points) ∧
      ∀ (text : String) (channels : ChannelSet),
        (∃ point points, parse text channels = .ok (point :: points)) ∨
          parse text channels = .error (.invalidArgument text) := by
  refine ⟨fun channels groups points text selected nonempty written separates => ?_,
    fun text channels => ?_⟩
  · have members := members_ne_nil selected
    have few : channels.members.length ≤ 4 := List.length_filter_le _ _
    obtain ⟨areWords, count⟩ := isWord_of_writesPoints written
    have read := points?_of_writesPoints members few written count
    obtain ⟨point, points, rfl⟩ := List.exists_cons_of_ne_nil nonempty
    have counted : channels.count ≠ 0 := by
      simpa [ChannelSet.count] using members
    rw [parse, if_neg counted, words_of_separates areWords separates, read]
  · unfold parse
    dsimp only
    split
    · next point points _ => exact .inl ⟨point, points, rfl⟩
    · exact .inr rfl

/-- Red at the origin with blanks inside its brackets, then green in numbers at another place. -/
theorem red_and_green_are_read :
    parse "0,0 rgb( 255,0 ,0) ,\t.5 -1e1,0 1 0" .rgb =
      .ok
        [{ x := 0.0, y := 0.0, values := [1.0, 0.0, 0.0, 0.0] },
          { x := 0.5, y := -10.0, values := [0.0, 1.0, 0.0, 0.0] }] := by
  have zero : Decimal.WritesNumber ['0'] 0.0 :=
    .plain (@Decimal.WritesLiteral.whole ['0'] [] 0 (by decide) .absent)
  have one : Decimal.WritesNumber ['1'] 1.0 := by
    have value : (⟨1, 0⟩ : Decimal.Literal).value = 1.0 := by decide
    rw [← value]
    exact .plain (@Decimal.WritesLiteral.whole ['1'] [] 0 (by decide) .absent)
  have half : Decimal.WritesNumber ['.', '5'] 0.5 := by
    have value : (⟨5, -1⟩ : Decimal.Literal).value = 0.5 := by decide
    rw [← value]
    exact .plain (@Decimal.WritesLiteral.point [] ['5'] [] 0 (by decide) .absent)
  have minusTen : Decimal.WritesNumber ['-', '1', 'e', '1'] (-10.0) := by
    have value : (⟨1, 1⟩ : Decimal.Literal).value = 10.0 := by decide
    rw [← value]
    exact .minus (@Decimal.WritesLiteral.whole ['1'] ['e', '1'] 1 (by decide)
      (.plain (.inl rfl) (by decide)))
  have red : WritesValues ChannelSet.rgb.members ["rgb( 255,0 ,0)".toList] [1.0, 0.0, 0.0] := by
    have parts : [1.0, 0.0, 0.0] =
        ChannelSet.rgb.members.map fun k => ((⟨255, 0, 0, 255⟩ : Color).get k).toFloat / 255.0 := by
      decide +kernel
    rw [parts]
    exact .color (by decide) (by decide +kernel)
  have green : WritesValues ChannelSet.rgb.members [['0'], ['1'], ['0']] [0.0, 1.0, 0.0] :=
    .numbers (.cons zero (.cons one (.cons zero .nil))) rfl
  refine written_places_are_read.1 .rgb
    [[['0'], ['0'], "rgb( 255,0 ,0)".toList],
      [['.', '5'], ['-', '1', 'e', '1'], ['0'], ['1'], ['0']]]
    _ _ (by decide) (by simp) (.cons ⟨zero, zero, red⟩ (.cons ⟨half, minusTen, green⟩ .nil)) ?_
  exact @Separates.cons ['0'] [','] _ _ (by decide) (by decide) <|
    @Separates.cons ['0'] [' '] _ _ (by decide) (by decide) <|
    @Separates.cons "rgb( 255,0 ,0)".toList [' ', ',', '\t'] _ _ (by decide) (by decide) <|
    @Separates.cons ['.', '5'] [' '] _ _ (by decide) (by decide) <|
    @Separates.cons ['-', '1', 'e', '1'] [','] _ _ (by decide) (by decide) <|
    @Separates.cons ['0'] [' '] _ _ (by decide) (by decide) <|
    @Separates.cons ['1'] [' '] _ _ (by decide) (by decide) <|
    .single ['0']

end SparseColor
end Darkroom
