import Darkroom.Geometry.Scenes
import Darkroom.Proofs.Text
import Mathlib.Data.Int.Range
import Mathlib.Data.List.Sort
import Mathlib.Data.Nat.Digits.Defs

/-!
# What lists of scenes mean

The grammar of lists of scenes is stated here on its own: indexes are digits with an optional minus
sign, and a part is an index or two indexes with a dash between them, so that a dash can be a sign
and a separator in one text.  Each part means the whole numbers from one end to the other, forwards
or backwards.

Reading follows the grammar exactly.  A text that belongs to it is always selected from, with the
numbers outside the list left out, and it is parsed when no end of a part lies outside.
-/

namespace Darkroom
namespace Scenes

/-! ## The grammar -/

/-- At least one digit and nothing else. -/
def IsNumeral (digits : List Char) : Prop :=
  digits ≠ [] ∧ ∀ c ∈ digits, c.isDigit

/-- The number that digits stand for, the last of them for units. -/
def numeral (digits : List Char) : Nat :=
  Nat.ofDigits 10 (digits.reverse.map fun c => c.toNat - '0'.toNat)

/-- How an index is written: digits, behind a minus sign when it is counted from the end.  It must
fit a signed word of 64 bits. -/
inductive WritesIndex : Int → List Char → Prop
  | digits
      {digits : List Char}
      (isNumeral : IsNumeral digits)
      (fits : numeral digits < 2 ^ 63) :
      WritesIndex (numeral digits) digits
  | minus
      {digits : List Char}
      (isNumeral : IsNumeral digits)
      (fits : numeral digits ≤ 2 ^ 63) :
      WritesIndex (-numeral digits) ('-' :: digits)

/-- How a part is written: one index, or two with a dash between them. -/
inductive WritesPart : Int × Int → List Char → Prop
  | single
      {index : Int}
      {text : List Char}
      (written : WritesIndex index text) :
      WritesPart (index, index) text
  | range
      {first last : Int}
      {firstText lastText : List Char}
      (firstWritten : WritesIndex first firstText)
      (lastWritten : WritesIndex last lastText) :
      WritesPart (first, last) (firstText ++ '-' :: lastText)

/-- How parts are written in pieces: a piece is blank and holds no part, or it is one part with
blanks around it. -/
inductive WritesParts : List (Int × Int) → List (List Char) → Prop
  | nil : WritesParts [] []
  | blank
      {parts : List (Int × Int)}
      {piece : List Char}
      {pieces : List (List Char)}
      (blank : ∀ c ∈ piece, c = ' ')
      (others : WritesParts parts pieces) :
      WritesParts parts (piece :: pieces)
  | part
      {part : Int × Int}
      {parts : List (Int × Int)}
      {before text behind : List Char}
      {pieces : List (List Char)}
      (blankBefore : ∀ c ∈ before, c = ' ')
      (written : WritesPart part text)
      (blankBehind : ∀ c ∈ behind, c = ' ')
      (others : WritesParts parts pieces) :
      WritesParts (part :: parts) ((before ++ text ++ behind) :: pieces)

/-- A text that writes some parts, with commas between them. -/
structure Writes (parts : List (Int × Int)) (text : String) : Prop where
  /-- The text is not empty. -/
  nonempty : text ≠ ""
  /-- It is made of digits, dashes, commas and spaces. -/
  alphabet : ∀ c ∈ text.toList, c.isDigit ∨ c = '-' ∨ c = ',' ∨ c = ' '
  /-- What stands between the commas writes the parts. -/
  pieces : WritesParts parts (text.toList.splitOn ',')

/-! ## The meaning -/

/-- The place that an index means in a list of `length` images. -/
def place (length : Nat) (index : Int) : Int :=
  if index < 0 then length + index else index

/-- The place lies in a list of `length` images. -/
def Inside (length : Nat) (place : Int) : Prop :=
  0 ≤ place ∧ place < length

instance (length : Nat) : DecidablePred (Inside length) :=
  fun place => inferInstanceAs (Decidable (0 ≤ place ∧ place < length))

/-- The whole numbers from one to another, both included, in the order in which they are met. -/
def between (first last : Int) : List Int :=
  if first ≤ last then Int.range first (last + 1) else (Int.range last (first + 1)).reverse

/-- The places that some parts mean, part after part. -/
def places (length : Nat) (parts : List (Int × Int)) : List Int :=
  parts.flatMap fun part => between (place length part.1) (place length part.2)

/-- The places of some parts that lie in the list. -/
def indexes (length : Nat) (parts : List (Int × Int)) : List Nat :=
  ((places length parts).filter (Inside length ·)).map Int.toNat

/-- Both ends of every part lie in the list. -/
def EndInside (length : Nat) (parts : List (Int × Int)) : Prop :=
  ∀ part ∈ parts, Inside length (place length part.1) ∧ Inside length (place length part.2)

instance (length : Nat) : DecidablePred (EndInside length) :=
  fun parts => inferInstanceAs (Decidable (∀ part ∈ parts, _))

/-! ## Indexes -/

theorem ofDigits_eq_numeral
    (digits : List Char) :
    Integer.ofDigits digits = numeral digits := by
  rw [Integer.ofDigits, numeral, List.map_reverse, Nat.ofDigits_eq_foldr, List.foldr_reverse,
    List.foldl_map]
  congr 1
  funext n c
  simp only [Nat.cast_id]
  omega

theorem digits?_eq_some_iff
    {digits : List Char}
    {n : Nat} :
    Integer.digits? digits = some n ↔ IsNumeral digits ∧ numeral digits = n := by
  rw [Integer.digits?, IsNumeral, ofDigits_eq_numeral]
  cases digits <;> simp

theorem IsNumeral.not_mem
    {digits : List Char}
    (isNumeral : IsNumeral digits)
    {c : Char}
    (noDigit : c.isDigit = false) :
    c ∉ digits := by
  intro mem
  rw [isNumeral.2 c mem] at noDigit
  cases noDigit

/-- Without plus signs, whole numbers are read as indexes are written. -/
theorem signed?_eq_some_iff
    {text : List Char}
    (noPlus : '+' ∉ text)
    {index : Int} :
    Integer.signed? (-(2 ^ 63)) (2 ^ 63 - 1) text = some index ↔ WritesIndex index text := by
  unfold Integer.signed?
  constructor
  · intro read
    obtain ⟨value, bounds⟩ := Option.filter_eq_some_iff.mp read
    simp only [Bool.and_eq_true, decide_eq_true_eq] at bounds
    split at value
    · next rest =>
      obtain ⟨_, negated, rfl⟩ := Option.map_eq_some_iff.mp value
      obtain ⟨n, digits, ⟨⟩⟩ := Option.bind_eq_some_iff.mp negated
      obtain ⟨isNumeral, rfl⟩ := digits?_eq_some_iff.mp digits
      exact .minus isNumeral (by omega)
    · next rest => simp at noPlus
    · obtain ⟨n, digits, rfl⟩ := Option.map_eq_some_iff.mp value
      obtain ⟨isNumeral, rfl⟩ := digits?_eq_some_iff.mp digits
      exact .digits isNumeral (by simp only [Int.ofNat_eq_natCast] at bounds; omega)
  · intro written
    rw [Option.filter_eq_some_iff]
    cases written with
    | @minus digits isNumeral fits =>
        have value := digits?_eq_some_iff.mpr ⟨isNumeral, rfl⟩
        refine ⟨by simp [value], ?_⟩
        simp only [Bool.and_eq_true, decide_eq_true_eq]
        omega
    | digits isNumeral fits =>
        have value := digits?_eq_some_iff.mpr ⟨isNumeral, rfl⟩
        split
        · next rest => exact absurd List.mem_cons_self (isNumeral.not_mem (by decide))
        · next rest => exact absurd List.mem_cons_self noPlus
        · refine ⟨by simp [value], ?_⟩
          simp only [Bool.and_eq_true, decide_eq_true_eq]
          omega

/-- A number that fits a signed word means the same place in a word. -/
theorem absolute_ofInt
    (length : Nat)
    {index : Int}
    (low : -(2 ^ 63) ≤ index)
    (high : index ≤ 2 ^ 63 - 1) :
    absolute length (Int64.ofInt index) = place length index := by
  have toInt : (Int64.ofInt index).toInt = index :=
    Int64.toInt_ofInt_of_le low (by omega)
  have sign : Int64.ofInt index < 0 ↔ index < 0 := by
    rw [Int64.lt_iff_toInt_lt, toInt]
    rfl
  simp only [absolute, place, sign, toInt]

theorem WritesIndex.bounds
    {index : Int}
    {text : List Char}
    (written : WritesIndex index text) :
    -(2 ^ 63) ≤ index ∧ index ≤ 2 ^ 63 - 1 := by
  cases written <;> omega

/-- Without plus signs, places are read off indexes. -/
theorem signed64?_place
    {text : List Char}
    (noPlus : '+' ∉ text)
    {length : Nat}
    {p : Int} :
    (Integer.signed64? text).map (absolute length) = some p ↔
      ∃ index, WritesIndex index text ∧ place length index = p := by
  simp only [Integer.signed64?, Option.map_map, Option.map_eq_some_iff, Function.comp_apply,
    signed?_eq_some_iff noPlus]
  refine exists_congr fun index => and_congr_right fun written => ?_
  rw [absolute_ofInt length written.bounds.1 written.bounds.2]

/-- Only the first character of an index can be a dash. -/
theorem WritesIndex.exists_cons
    {index : Int}
    {text : List Char}
    (written : WritesIndex index text) :
    ∃ first rest, text = first :: rest ∧ '-' ∉ rest := by
  cases written with
  | digits isNumeral fits =>
      obtain ⟨first, rest, rfl⟩ := List.exists_cons_of_ne_nil isNumeral.1
      exact ⟨first, rest, rfl, fun mem =>
        isNumeral.not_mem (by decide) (List.mem_cons_of_mem first mem)⟩
  | minus isNumeral fits => exact ⟨'-', _, rfl, isNumeral.not_mem (by decide)⟩

/-- An index is made of digits and dashes. -/
theorem WritesIndex.alphabet
    {index : Int}
    {text : List Char}
    (written : WritesIndex index text) :
    ∀ c ∈ text, c.isDigit ∨ c = '-' := by
  cases written with
  | digits isNumeral fits => exact fun c mem => .inl (isNumeral.2 c mem)
  | minus isNumeral fits =>
      intro c mem
      exact (List.mem_cons.mp mem).symm.imp_left (isNumeral.2 c)

/-! ## Parts -/

/-- A part is made of digits and dashes, at least one of them. -/
theorem WritesPart.alphabet
    {part : Int × Int}
    {text : List Char}
    (written : WritesPart part text) :
    text ≠ [] ∧ ∀ c ∈ text, c.isDigit ∨ c = '-' := by
  cases written with
  | single written =>
      obtain ⟨first, rest, rfl, -⟩ := written.exists_cons
      exact ⟨List.cons_ne_nil _ _, written.alphabet⟩
  | range firstWritten lastWritten =>
      refine ⟨by simp, fun c mem => ?_⟩
      rcases List.mem_append.mp mem with front | behind
      · exact firstWritten.alphabet c front
      · rcases List.mem_cons.mp behind with rfl | last
        · exact .inr rfl
        · exact lastWritten.alphabet c last

/-- Without plus signs, the ends of a part are read as parts are written: the first dash behind the
first character separates them. -/
theorem ends?_eq_some_iff
    {item : List Char}
    (noPlus : '+' ∉ item)
    {length : Nat}
    {ends : Int × Int} :
    ends? length item = some ends ↔
      ∃ part, WritesPart part item ∧ (place length part.1, place length part.2) = ends := by
  obtain ⟨start, stop⟩ := ends
  constructor
  · intro read
    unfold ends? at read
    extract_lets place? at read
    cases item with
    | nil => cases read
    | cons c rest =>
        dsimp only at read
        split at read
        · next head tail cut =>
          obtain ⟨rfl, absent⟩ := Text.cut?_eq_some_iff.mp cut
          have plusless : '+' ∉ c :: head ∧ '+' ∉ tail := by simp_all
          obtain ⟨first, readFirst, read⟩ := Option.bind_eq_some_iff.mp read
          obtain ⟨last, readLast, ⟨⟩⟩ := Option.bind_eq_some_iff.mp read
          obtain ⟨m, firstWritten, rfl⟩ := (signed64?_place plusless.1).mp readFirst
          obtain ⟨n, lastWritten, rfl⟩ := (signed64?_place plusless.2).mp readLast
          exact ⟨(m, n), .range firstWritten lastWritten, rfl⟩
        · obtain ⟨p, readIndex, ⟨⟩⟩ := Option.map_eq_some_iff.mp read
          obtain ⟨n, written, rfl⟩ := (signed64?_place noPlus).mp readIndex
          exact ⟨(n, n), .single written, rfl⟩
  · rintro ⟨part, written, ⟨⟩⟩
    cases written with
    | single written =>
        obtain ⟨c, rest, rfl, noDash⟩ := written.exists_cons
        simp only [ends?, Text.cut?_eq_none_iff.mpr noDash,
          (signed64?_place noPlus).mpr ⟨_, written, rfl⟩, Option.map_some]
    | @range m n firstText lastText firstWritten lastWritten =>
        obtain ⟨c, rest, rfl, noDash⟩ := firstWritten.exists_cons
        have cut : Text.cut? '-' (rest ++ '-' :: lastText) = some (rest, lastText) :=
          Text.cut?_eq_some_iff.mpr ⟨rfl, noDash⟩
        obtain ⟨firstPlusless, lastPlusless⟩ : '+' ∉ c :: rest ∧ '+' ∉ lastText := by
          simp only [List.mem_append, List.mem_cons, not_or] at noPlus ⊢
          exact ⟨noPlus.1, noPlus.2.2⟩
        simp only [ends?, List.cons_append, cut,
          (signed64?_place firstPlusless).mpr ⟨m, firstWritten, rfl⟩,
          (signed64?_place lastPlusless).mpr ⟨n, lastWritten, rfl⟩]
        rfl

/-! ## Ranges -/

theorem pairwise_lt_between
    {first last : Int}
    (forwards : first ≤ last) :
    (between first last).Pairwise (· < ·) := by
  rw [between, if_pos forwards, Int.range]
  exact List.pairwise_lt_range.map _ fun i j less => by omega

theorem mem_between_iff
    {first last n : Int} :
    n ∈ between first last ↔ min first last ≤ n ∧ n ≤ max first last := by
  unfold between
  split
  · rw [Int.mem_range_iff]
    omega
  · rw [List.mem_reverse, Int.mem_range_iff]
    omega

/-- Backwards the same numbers are met in the reverse order. -/
theorem between_reverse
    (first last : Int) :
    (between first last).reverse = between last first := by
  unfold between
  split
  · next forwards =>
    split
    · next backwards =>
      obtain rfl : first = last := Int.le_antisymm forwards backwards
      simp [Int.range]
    · rfl
  · next backwards => rw [if_pos (by omega), List.reverse_reverse]

theorem between_inside
    {length : Nat}
    {first last : Int}
    (firstInside : Inside length first)
    (lastInside : Inside length last) :
    ∀ n ∈ between first last, Inside length n := by
  intro n mem
  rw [mem_between_iff] at mem
  unfold Inside at *
  omega

/-- A range cut to the list is the range without the places outside. -/
theorem span_eq
    (length : Nat)
    (first last : Int) :
    (span length first last).map Int.ofNat = (between first last).filter (Inside length ·) := by
  have forwards {first last : Int} (ordered : first ≤ last) :
      (List.range' (max 0 first).toNat
          (min ((length : Int) - 1) last + 1 - max 0 first).toNat).map Int.ofNat =
        (between first last).filter (Inside length ·) := by
    refine List.Pairwise.eq_of_mem_iff (r := (· < ·)) ?_ ?_ fun n => ?_
    · exact (List.pairwise_lt_range' _ (by decide)).map _ fun i j less => by
        simpa using less
    · exact (pairwise_lt_between ordered).filter _
    · simp only [List.mem_map, List.mem_range'_1, List.mem_filter, mem_between_iff,
        min_eq_left ordered, max_eq_right ordered, decide_eq_true_eq, Int.ofNat_eq_natCast]
      unfold Inside
      constructor
      · rintro ⟨i, bounds, rfl⟩
        omega
      · rintro ⟨bounds, inside⟩
        exact ⟨n.toNat, by omega, by omega⟩
  unfold span
  extract_lets low high forward
  split
  · next ordered =>
    rw [← forwards ordered]
    simp only [forward, low, high, min_eq_left ordered, max_eq_right ordered]
  · next backwards =>
    have ordered : last ≤ first := by omega
    rw [← between_reverse, List.filter_reverse, ← forwards ordered, List.map_reverse]
    simp only [forward, low, high, min_eq_right ordered, max_eq_left ordered]

/-! ## Items -/

theorem span_eq_indexes
    (length : Nat)
    (part : Int × Int) :
    span length (place length part.1) (place length part.2) = indexes length [part] := by
  simp [indexes, places, ← span_eq, Function.comp_def]

theorem indexes_cons
    (length : Nat)
    (part : Int × Int)
    (parts : List (Int × Int)) :
    indexes length (part :: parts) = indexes length [part] ++ indexes length parts := by
  simp [indexes, places]

/-- Nothing is left out of parts whose ends lie in the list. -/
theorem filter_inside_of_endInside
    {length : Nat}
    {parts : List (Int × Int)}
    (inside : EndInside length parts) :
    (places length parts).filter (Inside length ·) = places length parts := by
  rw [List.filter_eq_self]
  intro n mem
  obtain ⟨part, isPart, between⟩ := List.mem_flatMap.mp mem
  have ends := inside part isPart
  exact decide_eq_true (between_inside ends.1 ends.2 n between)

/-- Without plus signs, an item is read as the part that it writes.  A strict reader refuses ends
that lie outside. -/
theorem item?_eq_some_iff
    {strict : Bool}
    {length : Nat}
    {item : List Char}
    (noPlus : '+' ∉ item)
    {chosen : List Nat} :
    item? strict length item = some chosen ↔
      ∃ part, WritesPart part item ∧ (strict → EndInside length [part]) ∧
        indexes length [part] = chosen := by
  unfold item?
  constructor
  · intro read
    obtain ⟨ends, readEnds, kept⟩ := Option.bind_eq_some_iff.mp read
    obtain ⟨part, written, rfl⟩ := (ends?_eq_some_iff noPlus).mp readEnds
    dsimp only at kept
    split at kept
    · cases kept
    · next accepted =>
      cases kept
      refine ⟨part, written, fun isStrict => ?_, (span_eq_indexes length part).symm⟩
      simpa [isStrict, EndInside, Inside] using accepted
  · rintro ⟨part, written, inside, rfl⟩
    rw [(ends?_eq_some_iff noPlus).mpr ⟨part, written, rfl⟩, Option.bind_some]
    dsimp only
    rw [if_neg, span_eq_indexes]
    cases strict with
    | false => simp
    | true => simpa [EndInside, Inside] using inside

/-! ## Pieces -/

/-- No character of a part is blank. -/
theorem WritesPart.solid
    {part : Int × Int}
    {text : List Char}
    (written : WritesPart part text) :
    ∀ c ∈ text, Text.isBlank c = false := by
  intro c mem
  rcases written.alphabet.2 c mem with digit | rfl
  · exact Text.isBlank_of_isDigit digit
  · decide

/-- A piece without other blanks than spaces holds a part exactly when something is left of it
after trimming, and it holds what is left. -/
theorem writesParts_cons_iff
    {parts : List (Int × Int)}
    {piece : List Char}
    {pieces : List (List Char)}
    (spaces : ∀ c ∈ piece, Text.isBlank c → c = ' ') :
    WritesParts parts (piece :: pieces) ↔
      Text.trim piece = [] ∧ WritesParts parts pieces ∨
        ∃ part others, parts = part :: others ∧ WritesPart part (Text.trim piece) ∧
          WritesParts others pieces := by
  have blank {s : List Char} (isSpace : ∀ c ∈ s, c = ' ') : ∀ c ∈ s, Text.isBlank c := by
    intro c mem
    rw [isSpace c mem]
    decide
  constructor
  · intro written
    cases written with
    | blank isSpace others => exact .inl ⟨Text.trim_eq_nil_iff.mpr (blank isSpace), others⟩
    | @part part rest before text behind pieces spaceBefore written spaceBehind others =>
        have trimmed : Text.trim (before ++ text ++ behind) = text :=
          Text.trim_of_blanks_around (blank spaceBefore) written.solid (blank spaceBehind)
        exact .inr ⟨part, rest, rfl, trimmed.symm ▸ written, others⟩
  · rintro (⟨nothing, others⟩ | ⟨part, others, rfl, written, rest⟩)
    · exact .blank (fun c mem => spaces c mem (Text.trim_eq_nil_iff.mp nothing c mem)) others
    · obtain ⟨before, behind, blankBefore, blankBehind, around⟩ :=
        Text.exists_blanks_around_trim piece
      rw [around] at spaces
      rw [around]
      exact .part (fun c mem => spaces c (by simp [mem]) (blankBefore c mem)) written
        (fun c mem => spaces c (by simp [mem]) (blankBehind c mem)) rest

/-- In an empty list an index is its own place, so that the ends of a part are its indexes. -/
theorem writesPart_iff
    {part : Int × Int}
    {text : List Char}
    (noPlus : '+' ∉ text) :
    WritesPart part text ↔ ends? 0 text = some part := by
  simp [ends?_eq_some_iff noPlus, place]

/-- A text writes one part at most. -/
theorem WritesPart.unique
    {part other : Int × Int}
    {text : List Char}
    (written : WritesPart part text)
    (alsoWritten : WritesPart other text) :
    part = other := by
  have noPlus : '+' ∉ text := fun mem => by
    simpa using written.alphabet.2 '+' mem
  rw [writesPart_iff noPlus] at written alsoWritten
  exact Option.some.inj (written.symm.trans alsoWritten)

/-- Pieces write one list of parts at most. -/
theorem WritesParts.unique
    {parts others : List (Int × Int)}
    {pieces : List (List Char)}
    (spaces : ∀ piece ∈ pieces, ∀ c ∈ piece, Text.isBlank c → c = ' ')
    (written : WritesParts parts pieces)
    (alsoWritten : WritesParts others pieces) :
    parts = others := by
  induction pieces generalizing parts others with
  | nil =>
      cases written
      cases alsoWritten
      rfl
  | cons piece pieces inductionHypothesis =>
      replace inductionHypothesis {parts others : List (Int × Int)} :=
        @inductionHypothesis parts others fun p mem => spaces p (List.mem_cons_of_mem _ mem)
      have noPart {part : Int × Int} : ¬ WritesPart part [] := fun written =>
        written.alphabet.1 rfl
      rw [writesParts_cons_iff (spaces piece List.mem_cons_self)] at written alsoWritten
      rcases written with ⟨nothing, written⟩ | ⟨part, rest, rfl, one, written⟩ <;>
        rcases alsoWritten with ⟨nothing', alsoWritten⟩ | ⟨part', rest', rfl, one', alsoWritten⟩
      · exact inductionHypothesis written alsoWritten
      · exact absurd (nothing ▸ one') noPart
      · exact absurd (nothing' ▸ one) noPart
      · rw [one.unique one', inductionHypothesis written alsoWritten]

/-- The items of pieces are read as the parts that the pieces write. -/
theorem mapM_item?_eq_some_iff
    {strict : Bool}
    {length : Nat}
    {pieces : List (List Char)}
    (spaces : ∀ piece ∈ pieces, ∀ c ∈ piece, Text.isBlank c → c = ' ')
    (plusless : ∀ piece ∈ pieces, '+' ∉ piece)
    {chosen : List (List Nat)} :
    ((pieces.map Text.trim).filter fun item => !item.isEmpty).mapM (item? strict length) =
        some chosen ↔
      ∃ parts, WritesParts parts pieces ∧ (strict → EndInside length parts) ∧
        parts.map (fun part => indexes length [part]) = chosen := by
  induction pieces generalizing chosen with
  | nil =>
      simp only [List.map_nil, List.filter_nil, List.mapM_nil]
      constructor
      · rintro ⟨⟩
        exact ⟨[], .nil, fun _ => by simp [EndInside], rfl⟩
      · rintro ⟨parts, written, -, rfl⟩
        cases written
        rfl
  | cons piece pieces inductionHypothesis =>
      have rest := @inductionHypothesis (fun p mem => spaces p (List.mem_cons_of_mem _ mem))
        (fun p mem => plusless p (List.mem_cons_of_mem _ mem))
      simp only [writesParts_cons_iff (spaces piece List.mem_cons_self)]
      by_cases nothing : Text.trim piece = []
      · have noPart {part : Int × Int} : ¬ WritesPart part [] := fun written =>
          written.alphabet.1 rfl
        simp [nothing, rest, noPart]
      · have noPlus : '+' ∉ Text.trim piece := fun mem =>
          plusless piece List.mem_cons_self (Text.trim_subset piece mem)
        rw [List.map_cons, List.filter_cons_of_pos (by simpa using nothing), List.mapM_cons]
        simp only [nothing, false_and, false_or]
        constructor
        · intro read
          obtain ⟨head, readHead, read⟩ := Option.bind_eq_some_iff.mp read
          obtain ⟨tail, readTail, ⟨⟩⟩ := Option.bind_eq_some_iff.mp read
          obtain ⟨part, written, inside, rfl⟩ := (item?_eq_some_iff noPlus).mp readHead
          obtain ⟨parts, others, insides, rfl⟩ := rest.mp readTail
          refine ⟨part :: parts, ⟨part, parts, rfl, written, others⟩, fun isStrict => ?_, rfl⟩
          exact List.forall_mem_cons.mpr ⟨inside isStrict part List.mem_cons_self, insides isStrict⟩
        · rintro ⟨_, ⟨part, parts, rfl, written, others⟩, inside, rfl⟩
          have readHead := (item?_eq_some_iff noPlus).mpr ⟨part, written, fun isStrict => by
            simpa [EndInside] using (List.forall_mem_cons.mp (inside isStrict)).1, rfl⟩
          have readTail := rest.mpr ⟨parts, others, fun isStrict =>
            (List.forall_mem_cons.mp (inside isStrict)).2, rfl⟩
          rw [readHead, readTail]
          rfl

/-! ## Texts -/

theorem isList_iff
    {text : List Char} :
    isList text ↔ text ≠ [] ∧ ∀ c ∈ text, c.isDigit ∨ c = '-' ∨ c = ',' ∨ c = ' ' := by
  simp [isList, or_assoc]

section Pieces

variable {text : List Char}

/-- The only blanks between the commas are spaces. -/
theorem space_of_isBlank
    (alphabet : ∀ c ∈ text, c.isDigit ∨ c = '-' ∨ c = ',' ∨ c = ' ') :
    ∀ piece ∈ text.splitOn ',', ∀ c ∈ piece, Text.isBlank c → c = ' ' := by
  intro piece isPiece c mem blank
  rcases alphabet c (Text.mem_of_mem_splitOn isPiece mem) with digit | rfl | rfl | rfl
  · rw [Text.isBlank_of_isDigit digit] at blank
    cases blank
  · exact absurd blank (by decide)
  · exact absurd blank (by decide)
  · rfl

/-- No plus sign stands between the commas. -/
theorem plus_not_mem
    (alphabet : ∀ c ∈ text, c.isDigit ∨ c = '-' ∨ c = ',' ∨ c = ' ') :
    ∀ piece ∈ text.splitOn ',', '+' ∉ piece := by
  intro piece isPiece mem
  simpa using alphabet '+' (Text.mem_of_mem_splitOn isPiece mem)

end Pieces

theorem Writes.unique
    {parts others : List (Int × Int)}
    {text : String}
    (written : Writes parts text)
    (alsoWritten : Writes others text) :
    parts = others :=
  written.pieces.unique (space_of_isBlank written.alphabet) alsoWritten.pieces

theorem flatten_indexes
    (length : Nat)
    (parts : List (Int × Int)) :
    (parts.map fun part => indexes length [part]).flatten = indexes length parts := by
  induction parts with
  | nil => rfl
  | cons part parts inductionHypothesis =>
      rw [List.map_cons, List.flatten_cons, inductionHypothesis, ← indexes_cons]

/-- A text is read as the parts that it writes. -/
theorem resolve_eq_ok_iff
    {strict : Bool}
    {text : String}
    {length : Nat}
    {chosen : List Nat} :
    resolve strict text length = .ok chosen ↔
      ∃ parts, Writes parts text ∧ (strict → EndInside length parts) ∧
        indexes length parts = chosen := by
  have read : resolve strict text length = .ok chosen ↔
      (if isList text.toList then
        ((items text.toList).mapM (item? strict length)).map List.flatten else none) =
          some chosen := by
    unfold resolve
    generalize (if isList text.toList then _ else none) = given
    cases given <;> simp
  rw [read, Option.ite_none_right_eq_some, isList_iff]
  constructor
  · rintro ⟨⟨nonempty, alphabet⟩, readItems⟩
    obtain ⟨_, readPieces, rfl⟩ := Option.map_eq_some_iff.mp readItems
    obtain ⟨parts, written, inside, rfl⟩ := (mapM_item?_eq_some_iff (space_of_isBlank alphabet)
      (plus_not_mem alphabet)).mp readPieces
    exact ⟨parts, ⟨by simpa using nonempty, alphabet, written⟩, inside,
      (flatten_indexes length parts).symm⟩
  · rintro ⟨parts, ⟨nonempty, alphabet, written⟩, inside, rfl⟩
    have readPieces := (mapM_item?_eq_some_iff (space_of_isBlank alphabet)
      (plus_not_mem alphabet)).mpr ⟨parts, written, inside, rfl⟩
    refine ⟨⟨by simpa using nonempty, alphabet⟩, ?_⟩
    rw [items, readPieces, Option.map_some, flatten_indexes]

theorem map_ofNat_indexes
    (length : Nat)
    (parts : List (Int × Int)) :
    (indexes length parts).map Int.ofNat = (places length parts).filter (Inside length ·) := by
  rw [indexes, List.map_map, List.map_congr_left (g := id), List.map_id]
  intro n mem
  have inside : Inside length n := by simpa using (List.mem_filter.mp mem).2
  exact Int.toNat_of_nonneg inside.1

/-- Numbers are indexes exactly when they are the places that lie in the list. -/
theorem indexes_eq_iff
    {length : Nat}
    {parts : List (Int × Int)}
    {chosen : List Nat} :
    indexes length parts = chosen ↔
      chosen.map Int.ofNat = (places length parts).filter (Inside length ·) := by
  rw [← map_ofNat_indexes, (List.map_injective_iff.mpr fun _ _ => Int.ofNat.inj).eq_iff, eq_comm]

theorem select_eq_ok_iff
    {text : String}
    {length : Nat}
    {chosen : List Nat} :
    select text length = .ok chosen ↔
      ∃ parts, Writes parts text ∧ indexes length parts = chosen := by
  rw [select, resolve_eq_ok_iff]
  simp

theorem parse_eq_ok_iff
    {text : String}
    {length : Nat}
    {chosen : List Nat} :
    parse text length = .ok chosen ↔
      ∃ parts, Writes parts text ∧ EndInside length parts ∧ indexes length parts = chosen := by
  rw [parse, resolve_eq_ok_iff]
  simp

/-- Selected positions lie in the list. -/
theorem lt_of_mem_select
    {text : String}
    {length : Nat}
    {chosen : List Nat}
    (selected : select text length = .ok chosen) :
    ∀ index ∈ chosen, index < length := by
  intro index mem
  obtain ⟨parts, -, same⟩ := select_eq_ok_iff.mp selected
  have inList : Int.ofNat index ∈ (places length parts).filter (Inside length ·) :=
    indexes_eq_iff.mp same ▸ List.mem_map_of_mem mem
  have inside : Inside length (Int.ofNat index) := by simpa using (List.mem_filter.mp inList).2
  exact Int.ofNat_lt.mp inside.2

/-- Parsed positions lie in the list. -/
theorem lt_of_mem_parse
    {text : String}
    {length : Nat}
    {chosen : List Nat}
    (parsed : parse text length = .ok chosen) :
    ∀ index ∈ chosen, index < length := by
  obtain ⟨parts, written, -, same⟩ := parse_eq_ok_iff.mp parsed
  exact lt_of_mem_select (select_eq_ok_iff.mpr ⟨parts, written, same⟩)

/-- A text is selected from exactly when it writes some parts, and parsed exactly when the ends of
all parts also lie in the list.  Selecting gives the places of the parts in order, without those
outside, and parsing gives all places. -/
theorem select_and_parse
    (text : String)
    (length : Nat) :
    ((∃ chosen, select text length = .ok chosen) ↔ ∃ parts, Writes parts text) ∧
      ((∃ chosen, parse text length = .ok chosen) ↔
        ∃ parts, Writes parts text ∧ EndInside length parts) ∧
      (∀ parts, Writes parts text → ∀ chosen,
        (select text length = .ok chosen ↔
          chosen.map Int.ofNat = (places length parts).filter (Inside length ·)) ∧
        (parse text length = .ok chosen ↔
          EndInside length parts ∧ chosen.map Int.ofNat = places length parts)) ∧
      (∀ chosen, parse text length = .ok chosen → select text length = .ok chosen) ∧
      ∀ chosen, select text length = .ok chosen → ∀ index ∈ chosen, index < length := by
  refine ⟨?_, ?_, fun parts written chosen => ⟨?_, ?_⟩, ?_, fun chosen => lt_of_mem_select⟩
  · simp only [select_eq_ok_iff]
    exact ⟨fun ⟨_, parts, written, _⟩ => ⟨parts, written⟩,
      fun ⟨parts, written⟩ => ⟨_, parts, written, rfl⟩⟩
  · simp only [parse_eq_ok_iff]
    exact ⟨fun ⟨_, parts, written, inside, _⟩ => ⟨parts, written, inside⟩,
      fun ⟨parts, written, inside⟩ => ⟨_, parts, written, inside, rfl⟩⟩
  · rw [select_eq_ok_iff, ← indexes_eq_iff]
    constructor
    · rintro ⟨others, alsoWritten, same⟩
      rwa [written.unique alsoWritten]
    · exact fun same => ⟨parts, written, same⟩
  · rw [parse_eq_ok_iff]
    constructor
    · rintro ⟨others, alsoWritten, inside, same⟩
      rw [← written.unique alsoWritten] at inside same
      exact ⟨inside, filter_inside_of_endInside inside ▸ indexes_eq_iff.mp same⟩
    · rintro ⟨inside, same⟩
      refine ⟨parts, written, inside, indexes_eq_iff.mpr ?_⟩
      rw [same, filter_inside_of_endInside inside]
  · intro chosen parsed
    obtain ⟨parts, written, -, same⟩ := parse_eq_ok_iff.mp parsed
    exact select_eq_ok_iff.mpr ⟨parts, written, same⟩

/-- In four images the range from 9 back to 2 is cut to the last two, and it cannot be parsed. -/
theorem select_and_parse_backwards :
    Writes [(-2, -1), (9, 2), (0, 0)] "-2--1, 9-2,,0" ∧
      select "-2--1, 9-2,,0" 4 = .ok [2, 3, 3, 2, 0] ∧
      ¬ ∃ chosen, parse "-2--1, 9-2,,0" 4 = .ok chosen := by
  have written : Writes [(-2, -1), (9, 2), (0, 0)] "-2--1, 9-2,,0" := by
    have alphabet := (isList_iff.mp (by decide : isList "-2--1, 9-2,,0".toList)).2
    have single {part : Int × Int} {parts : List (Int × Int)} {piece : List Char}
        {pieces : List (List Char)} (isPiece : piece ∈ "-2--1, 9-2,,0".toList.splitOn ',')
        (noPlus : '+' ∉ Text.trim piece) (read : ends? 0 (Text.trim piece) = some part)
        (others : WritesParts parts pieces) : WritesParts (part :: parts) (piece :: pieces) :=
      (writesParts_cons_iff (space_of_isBlank alphabet piece isPiece)).mpr
        (.inr ⟨part, parts, rfl, (writesPart_iff noPlus).mpr read, others⟩)
    refine ⟨by decide, alphabet, ?_⟩
    refine single (by decide) (by decide) (by decide) ?_
    refine single (by decide) (by decide) (by decide) (.blank (List.forall_mem_nil _) ?_)
    exact single (by decide) (by decide) (by decide) .nil
  obtain ⟨-, -, values, -, -⟩ := select_and_parse "-2--1, 9-2,,0" 4
  refine ⟨written, (values _ written _).1.mpr (by decide), fun ⟨chosen, parsed⟩ => ?_⟩
  exact absurd ((values _ written chosen).2.mp parsed).1 (by decide)

end Scenes
end Darkroom
