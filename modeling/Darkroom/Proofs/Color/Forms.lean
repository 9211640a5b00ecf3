import Darkroom.Proofs.Color.Hexadecimal
import Darkroom.Proofs.Number.Decimal

/-!
# The written forms of colors

Blanks around it aside, the text of a color is the mark of hexadecimal with digits, a word, or a
word with arguments in brackets.  So it starts like no number, and it closes the brackets that it
opens.
-/

namespace Darkroom
namespace Text

/-! ## Brackets -/

/-- The number of open brackets behind a character; one that closes none counts for nothing. -/
def bracketsBehind (depth : Nat) (c : Char) : Nat :=
  if c = '(' then depth + 1 else if c = ')' then depth - 1 else depth

/-- The number of open brackets behind a text, with so many open in front of it. -/
def openBrackets (depth : Nat) (s : List Char) : Nat :=
  s.foldl bracketsBehind depth

@[simp] theorem openBrackets_cons
    (depth : Nat)
    (c : Char)
    (s : List Char) :
    openBrackets depth (c :: s) = openBrackets (bracketsBehind depth c) s := rfl

@[simp] theorem openBrackets_append
    (depth : Nat)
    (s t : List Char) :
    openBrackets depth (s ++ t) = openBrackets (openBrackets depth s) t :=
  List.foldl_append

/-- The text opens and closes no bracket. -/
def Bracketless (s : List Char) : Prop :=
  ∀ c ∈ s, c ≠ '(' ∧ c ≠ ')'

instance : DecidablePred Bracketless :=
  fun s => inferInstanceAs (Decidable (∀ c ∈ s, c ≠ '(' ∧ c ≠ ')'))

theorem bracketless_append_iff
    {s t : List Char} :
    Bracketless (s ++ t) ↔ Bracketless s ∧ Bracketless t :=
  List.forall_mem_append

theorem Bracketless.openBrackets_eq
    {s : List Char}
    (bracketless : Bracketless s)
    (depth : Nat) :
    openBrackets depth s = depth := by
  induction s with
  | nil => rfl
  | cons c rest inductionHypothesis =>
      obtain ⟨⟨noOpening, noClosing⟩, others⟩ := List.forall_mem_cons.mp bracketless
      rw [openBrackets_cons, bracketsBehind, if_neg noOpening, if_neg noClosing,
        inductionHypothesis others]

theorem openBrackets_lower
    (depth : Nat)
    (s : List Char) :
    openBrackets depth (lower s) = openBrackets depth s := by
  induction s generalizing depth with
  | nil => rfl
  | cons c rest inductionHypothesis =>
      have sameMark (mark : Char) (noLetter : mark.isAlpha = false)
          (unchanged : mark.toLower = mark) : c.toLower = mark ↔ c = mark :=
        ⟨eq_of_toLower_eq noLetter, fun same => by rw [same, unchanged]⟩
      have behind : bracketsBehind depth c.toLower = bracketsBehind depth c := by
        simp only [bracketsBehind, sameMark '(' rfl rfl, sameMark ')' rfl rfl]
      rw [lower, List.map_cons, openBrackets_cons, openBrackets_cons, behind]
      exact inductionHypothesis _

theorem bracketless_of_blank
    {s : List Char}
    (blank : ∀ c ∈ s, isBlank c) :
    Bracketless s := by
  intro c mem
  constructor
  · rintro rfl
    exact absurd (blank _ mem) (by decide)
  · rintro rfl
    exact absurd (blank _ mem) (by decide)

theorem bracketless_of_trim
    {s : List Char}
    (bracketless : Bracketless (trim s)) :
    Bracketless s := by
  obtain ⟨before, behind, blankBefore, blankBehind, around⟩ := exists_blanks_around_trim s
  rw [around, bracketless_append_iff, bracketless_append_iff]
  exact ⟨⟨bracketless_of_blank blankBefore, bracketless⟩, bracketless_of_blank blankBehind⟩

theorem openBrackets_trim
    (depth : Nat)
    (s : List Char) :
    openBrackets depth (trim s) = openBrackets depth s := by
  obtain ⟨before, behind, blankBefore, blankBehind, around⟩ := exists_blanks_around_trim s
  conv_rhs => rw [around]
  rw [openBrackets_append, openBrackets_append,
    (bracketless_of_blank blankBefore).openBrackets_eq,
    (bracketless_of_blank blankBehind).openBrackets_eq]

/-- Pieces without brackets come from a text without brackets, unless it is cut at them. -/
theorem bracketless_of_splitOn
    {mark : Char}
    {s : List Char}
    (noBracket : mark ≠ '(' ∧ mark ≠ ')')
    (pieces : ∀ piece ∈ s.splitOn mark, Bracketless piece) :
    Bracketless s := by
  intro c mem
  rcases eq_or_exists_mem_splitOn mark mem with rfl | ⟨piece, isPiece, inside⟩
  · exact noBracket
  · exact pieces piece isPiece c inside

end Text

namespace Decimal

theorem bracketless_of_alphabet
    {s : List Char}
    (alphabet : ∀ c ∈ s, IsNumberChar c) :
    Text.Bracketless s := by
  intro c mem
  constructor
  · rintro rfl
    exact absurd (alphabet _ mem) (by decide)
  · rintro rfl
    exact absurd (alphabet _ mem) (by decide)

theorem bracketless_of_number?
    {s : List Char}
    {x : Float}
    (read : number? s = some x) :
    Text.Bracketless s :=
  bracketless_of_alphabet (number?_alphabet read)

theorem bracketless_of_digits?
    {s : List Char}
    {n : Nat}
    (read : Integer.digits? s = some n) :
    Text.Bracketless s :=
  bracketless_of_alphabet (digits?_alphabet read)

end Decimal

namespace Color

open Text

/-! ## The forms -/

/-- Whether a text starts with a letter. -/
def startsWithLetter : List Char → Bool
  | first :: _ => first.isAlpha
  | [] => false

/-- A text without brackets that starts with a letter. -/
def IsWord (s : List Char) : Prop :=
  startsWithLetter s ∧ Bracketless s

instance : DecidablePred IsWord :=
  fun s => inferInstanceAs (Decidable (startsWithLetter s ∧ Bracketless s))

theorem IsWord.append
    {s t : List Char}
    (isWord : IsWord s)
    (bracketless : Bracketless t) :
    IsWord (s ++ t) := by
  refine ⟨?_, bracketless_append_iff.mpr ⟨isWord.2, bracketless⟩⟩
  cases s with
  | nil => exact absurd isWord.1 (by decide)
  | cons first rest => exact isWord.1

/-- The forms of colors in lower case, without blanks around them. -/
inductive HasForm : List Char → Prop
  | hexadecimal
      {digits : List Char}
      (bracketless : Bracketless digits) :
      HasForm ('#' :: digits)
  | word
      {name : List Char}
      (isWord : IsWord name) :
      HasForm name
  | function
      {name arguments : List Char}
      (isWord : IsWord name)
      (bracketless : Bracketless arguments) :
      HasForm (name ++ '(' :: (arguments ++ [')']))

theorem HasForm.openBrackets_eq
    {s : List Char}
    (hasForm : HasForm s) :
    openBrackets 0 s = 0 := by
  cases hasForm with
  | hexadecimal bracketless => exact bracketless.openBrackets_eq 0
  | word isWord => exact isWord.2.openBrackets_eq 0
  | function isWord bracketless =>
      rw [openBrackets_append, isWord.2.openBrackets_eq, openBrackets_cons, openBrackets_append,
        bracketless.openBrackets_eq]
      rfl

theorem HasForm.exists_cons
    {s : List Char}
    (hasForm : HasForm s) :
    ∃ first rest, s = first :: rest ∧ (first = '#' ∨ first.isAlpha) := by
  have start {word : List Char} (isWord : IsWord word) :
      ∃ first rest, word = first :: rest ∧ first.isAlpha := by
    cases word with
    | nil => exact absurd isWord (by decide)
    | cons first rest => exact ⟨first, rest, rfl, isWord.1⟩
  cases hasForm with
  | hexadecimal _ => exact ⟨'#', _, rfl, .inl rfl⟩
  | word isWord =>
      obtain ⟨first, rest, rfl, letter⟩ := start isWord
      exact ⟨first, rest, rfl, .inr letter⟩
  | function isWord _ =>
      obtain ⟨first, rest, rfl, letter⟩ := start isWord
      exact ⟨first, _, rfl, .inr letter⟩

theorem bracketless_of_amount?
    {whole x : Float}
    {s : List Char}
    (read : amount? whole s = some x) :
    Bracketless s := by
  refine bracketless_of_trim ?_
  unfold amount? at read
  dsimp only at read
  split at read
  · next percent cut =>
    obtain ⟨_, read, -⟩ := Option.map_eq_some_iff.mp read
    rw [eq_append_of_before? cut, bracketless_append_iff]
    exact ⟨bracketless_of_trim (Decimal.bracketless_of_number? read), by decide⟩
  · exact Decimal.bracketless_of_number? read

theorem bracketless_of_channelValue?
    {s : List Char}
    {v : UInt8}
    (read : channelValue? s = some v) :
    Bracketless s := by
  obtain ⟨_, read, -⟩ := Option.map_eq_some_iff.mp read
  exact bracketless_of_amount? read

theorem bracketless_of_alphaValue?
    {s : List Char}
    {v : UInt8}
    (read : alphaValue? s = some v) :
    Bracketless s := by
  obtain ⟨_, read, -⟩ := Option.map_eq_some_iff.mp read
  exact bracketless_of_amount? read

/-- The names of the functions. -/
def functionNames : List String :=
  ["rgb", "srgb", "rgba", "srgba", "gray", "grey", "graya", "greya"]

/-- What a function is read from: one of the names and arguments without brackets. -/
theorem function?_eq_some
    {name : String}
    {body : List Char}
    {c : Color}
    (read : function? name body = some c) :
    name ∈ functionNames ∧ Bracketless body := by
  suffices name ∈ functionNames ∧ ∀ piece ∈ body.splitOn ',', Bracketless piece from
    this.imp_right (bracketless_of_splitOn (by decide))
  unfold function? at read
  split at read
  all_goals first | cases read | skip
  -- Every piece is read as the value of a channel or as a coverage.
  all_goals
    next pieces =>
    rw [pieces]
    simp only [bind, Option.bind_eq_some_iff, Option.map_eq_some_iff] at read
    refine ⟨by decide, ?_⟩
    grind [bracketless_of_channelValue?, bracketless_of_alphaValue?]

theorem isWord_of_mem_functionNames
    {name : String}
    (known : name ∈ functionNames) :
    IsWord name.toList := by
  have all : ∀ name ∈ functionNames, IsWord name.toList := by decide
  exact all name known

theorem isWord_of_named?
    {name : String}
    {c : Color}
    (read : named? name = some c) :
    IsWord name.toList := by
  obtain ⟨_, _, entries, -⟩ := List.lookup_eq_some_iff.mp read
  have mem : (name, c) ∈ names := by
    rw [entries]
    exact List.mem_append_right _ List.mem_cons_self
  have all : ∀ entry ∈ names, IsWord entry.1.toList := by decide
  exact all (name, c) mem

theorem bracketless_of_word32?
    {s : List Char}
    {n : UInt32}
    (read : Integer.word32? s = some n) :
    Bracketless s := by
  obtain ⟨_, read, -⟩ := Option.map_eq_some_iff.mp read
  obtain ⟨read, -⟩ := Option.filter_eq_some_iff.mp read
  split at read
  · exact List.forall_mem_cons.mpr ⟨by decide, Decimal.bracketless_of_digits? read⟩
  · exact Decimal.bracketless_of_digits? read

theorem isWord_of_shade?
    {s : List Char}
    {c : Color}
    (read : shade? s = some c) :
    IsWord s := by
  have shade {mark : String} (isWord : IsWord mark.toList) {color? : UInt32 → Option Color}
      (read : ((after? mark.toList s).bind Integer.word32?).bind color? = some c) : IsWord s := by
    obtain ⟨level, read, -⟩ := Option.bind_eq_some_iff.mp read
    obtain ⟨digits, behind, read⟩ := Option.bind_eq_some_iff.mp read
    rw [eq_append_of_after? behind]
    exact isWord.append (bracketless_of_word32? read)
  rw [shade?, Option.orElse_eq_or] at read
  exact (Option.or_eq_some_iff.mp read).elim (shade (by decide))
    fun other => shade (by decide) other.2

/-- What is left in lower case starts with no blank. -/
theorem not_blank_of_lower_trim
    {s rest : List Char}
    {first : Char}
    (trimmed : lower (trim s) = first :: rest) :
    isBlank first = false := by
  obtain ⟨c, behind, same, rfl, -⟩ := List.map_eq_cons_iff.mp trimmed
  have solid := not_blank_of_trim same
  by_cases letter : c.toLower.isAlpha
  · exact isBlank_of_isAlpha letter
  · rwa [← eq_of_toLower_eq (by simpa using letter) rfl]

/-- A word behind which blanks may stand is a word itself. -/
theorem isWord_of_trim
    {name : List Char}
    (start : ∀ first rest, name = first :: rest → isBlank first = false)
    (isWord : IsWord (trim name)) :
    IsWord name := by
  refine ⟨?_, bracketless_of_trim isWord.2⟩
  cases name with
  | nil => exact absurd isWord.1 (by decide)
  | cons first rest =>
      have trimmed := isWord.1
      rwa [trim_cons (start first rest rfl)] at trimmed

/-- Every text that is read as a color has one of the forms. -/
theorem hasForm_of_ofChars?
    {s : List Char}
    {c : Color}
    (read : ofChars? s = some c) :
    HasForm (lower (trim s)) := by
  unfold ofChars? at read
  split at read
  · next digits trimmed =>
    rw [trimmed]
    refine HasForm.hexadecimal fun d mem => ?_
    obtain ⟨digit, isDigit, rfl⟩ := List.mem_map.mp mem
    have noBracket : ∀ d ∈ hexDigits, d ≠ '(' ∧ d ≠ ')' := by decide
    exact noBracket _ ((exists_hex?_iff.mp ⟨c, read⟩).1 digit isDigit)
  · dsimp only at read
    split at read
    · next name arguments cut =>
      obtain ⟨whole, -⟩ := cut?_eq_some_iff.mp cut
      obtain ⟨inner, closed, read⟩ := Option.bind_eq_some_iff.mp read
      obtain ⟨known, bracketless⟩ := function?_eq_some read
      obtain rfl := eq_append_of_before? closed
      have isWord := isWord_of_mem_functionNames known
      rw [String.toList_ofList] at isWord
      rw [whole]
      refine HasForm.function (isWord_of_trim ?_ isWord) bracketless
      rintro first rest rfl
      exact not_blank_of_lower_trim whole
    · rw [Option.orElse_eq_or] at read
      rcases Option.or_eq_some_iff.mp read with read | ⟨-, read⟩
      · simpa using HasForm.word (isWord_of_named? read)
      · exact .word (isWord_of_shade? read)

/-- A color closes the brackets that it opens. -/
theorem openBrackets_of_ofChars?
    {s : List Char}
    {c : Color}
    (read : ofChars? s = some c) :
    openBrackets 0 s = 0 := by
  rw [← openBrackets_trim, ← openBrackets_lower]
  exact (hasForm_of_ofChars? read).openBrackets_eq

end Color
end Darkroom
