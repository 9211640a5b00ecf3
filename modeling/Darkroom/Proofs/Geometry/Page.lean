import Darkroom.Geometry.Page
import Darkroom.Invocation
import Darkroom.Proofs.Number.Whole

/-!
# Page texts

A page is read back from its own text when its offsets are exact.  The canonical form of a page text
is a size, or a size with an offset, in whole numbers: it is its own canonical form, and it is read
as the page that it writes, with a size brought into the range of the page.
-/

namespace Darkroom

open Decimal

/-! ## Whole numbers in geometry -/

/-- The text behind a whole number does not go on with it. -/
def EndsNumber : List Char → Prop
  | [] => True
  | c :: _ => c = 'x' ∨ c = '+' ∨ c = '-'

/-- The text behind a number neither goes on with its digits nor starts a power of ten. -/
def StopsNumber : List Char → Prop
  | [] => True
  | c :: _ => (c.isDigit || c == '.') = false ∧ c ≠ 'e' ∧ c ≠ 'E'

theorem EndsNumber.stops
    {rest : List Char}
    (ends : EndsNumber rest) :
    StopsNumber rest := by
  cases rest with
  | nil => trivial
  | cons c rest => rcases ends with rfl | rfl | rfl <;> exact ⟨rfl, by decide, by decide⟩

theorem numeral_of_stops
    (n : Nat)
    {rest : List Char}
    (stops : StopsNumber rest) :
    numeral (Nat.toDigits 10 n ++ rest) = (Nat.toDigits 10 n, rest) := by
  have digits : ∀ c ∈ Nat.toDigits 10 n, (c.isDigit || c == '.') = true :=
    fun c mem => by rw [isDigit_of_mem_toDigits n c mem, Bool.true_or]
  unfold numeral
  dsimp only
  rw [List.takeWhile_append_of_pos digits, List.dropWhile_append_of_pos digits]
  cases rest with
  | nil => simp
  | cons c rest =>
      obtain ⟨other, noMark, noMark'⟩ := stops
      simp [other, noMark, noMark']

theorem takeNumber_of_stops
    (signed : Bool)
    (n : Nat)
    {rest : List Char}
    (stops : StopsNumber rest) :
    takeNumber signed (Nat.toDigits 10 n ++ rest) = some (whole n, rest) := by
  have read := numeral_of_stops n stops
  have number := number?_toDigits n
  cases written : Nat.toDigits 10 n with
  | nil => exact absurd written Nat.toDigits_ne_nil
  | cons c tail =>
      have isDigit : c.isDigit :=
        isDigit_of_mem_toDigits n c (by rw [written]; exact List.mem_cons_self)
      have noSign : (c == '+' || c == '-') = false := by
        rw [Bool.or_eq_false_iff, beq_eq_false_iff_ne, beq_eq_false_iff_ne]
        constructor <;> rintro rfl <;> exact absurd isDigit (by decide)
      rw [written] at read number
      rw [List.cons_append] at read
      simp [takeNumber, noSign, read, number]

theorem takeNumber_unsigned
    (s : List Char) :
    takeNumber false s =
      if (numeral s).1.isEmpty then none
      else (number? (numeral s).1).map fun x => (x, (numeral s).2) := by
  cases s <;> rfl

theorem numeral_toDigits
    (n : Nat)
    {rest : List Char}
    (ends : EndsNumber rest) :
    numeral (Nat.toDigits 10 n ++ rest) = (Nat.toDigits 10 n, rest) :=
  numeral_of_stops n ends.stops

theorem takeNumber_toDigits
    (n : Nat)
    {rest : List Char}
    (ends : EndsNumber rest) :
    takeNumber false (Nat.toDigits 10 n ++ rest) = some (whole n, rest) :=
  takeNumber_of_stops false n ends.stops

theorem signOf_eq
    (n : Int) :
    signOf n = '+' ∨ signOf n = '-' := by
  rw [signOf]
  split
  · exact .inr rfl
  · exact .inl rfl

theorem takeNumber_signed
    (n : Int)
    {rest : List Char}
    (ends : EndsNumber rest) :
    takeNumber true (signOf n :: (Nat.toDigits 10 n.natAbs ++ rest)) =
      some (signedWhole n, rest) := by
  have isSign : (signOf n == '+' || signOf n == '-') = true := by
    simpa using signOf_eq n
  have read := number?_signed n
  simp [takeNumber, isSign, numeral_toDigits n.natAbs ends, read]

theorem takeOffset_withSign
    (n : Int)
    {rest : List Char}
    (ends : EndsNumber rest) :
    Region.takeOffset ((Integer.withSign n).toList ++ rest) =
      some (some (truncInt64 (signedWhole n)), rest) := by
  rw [toList_withSign, List.cons_append]
  have isSigned : startsSigned (signOf n :: (Nat.toDigits 10 n.natAbs ++ rest)) = true := by
    simpa [startsSigned] using signOf_eq n
  rw [Region.takeOffset, if_pos isSigned, takeNumber_signed n ends]
  rfl

theorem isNumberChar_of_mem_toDigits
    (n : Nat) :
    ∀ c ∈ Nat.toDigits 10 n, IsNumberChar c :=
  fun c mem => isNumberChar_of_isDigit (isDigit_of_mem_toDigits n c mem)

/-- Numbers hold neither modifiers nor blanks, so that only the text behind them gives modifiers. -/
theorem split_append_of_numberChars
    {s marks : List Char}
    {m : Modifiers}
    (alphabet : ∀ c ∈ s, IsNumberChar c)
    (read : Modifiers.split marks = ([], m)) :
    Modifiers.split (s ++ marks) = (s, m) := by
  induction s with
  | nil => exact read
  | cons c rest inductionHypothesis =>
      obtain ⟨isNumberChar, others⟩ := List.forall_mem_cons.mp alphabet
      have noModifier : m.add? c = none := by
        unfold Modifiers.add?
        split <;> first | rfl | exact absurd isNumberChar (by decide)
      have tail := inductionHypothesis others
      rw [Modifiers.split] at tail ⊢
      rw [List.cons_append, List.foldr_cons, tail]
      simp [noModifier, not_blank_of_isNumberChar isNumberChar]

theorem split_of_numberChars
    {s : List Char}
    (alphabet : ∀ c ∈ s, IsNumberChar c) :
    Modifiers.split s = (s, .none) := by
  rw [← split_append_of_numberChars alphabet (show Modifiers.split [] = ([], .none) from rfl),
    List.append_nil]

/-! ## Regions -/

/-- The text of a size. -/
def sizeText (width height : Nat) : String :=
  toString width ++ "x" ++ toString height

theorem toList_sizeText
    (width height : Nat) :
    (sizeText width height).toList = Nat.toDigits 10 width ++ 'x' :: Nat.toDigits 10 height := by
  simp [sizeText]

theorem ofChars?_of_marks
    (width height : Nat)
    (offset : List Char)
    {x? y? : Option Int64}
    {rest marks : List Char}
    {m : Modifiers}
    (ends : EndsNumber offset)
    (alphabet : ∀ c ∈ offset, IsNumberChar c)
    (readX : Region.takeOffset offset = some (x?, rest))
    (readY : Region.takeOffset rest = some (y?, []))
    (read : Modifiers.split marks = ([], m)) :
    Region.ofChars? ((sizeText width height).toList ++ offset ++ marks) =
      some
        { width := some (whole width), height := some (whole height), x?, y?
          modifiers := m } := by
  have sizeAlphabet : ∀ c ∈ (sizeText width height).toList ++ offset, IsNumberChar c := by
    rw [toList_sizeText, List.forall_mem_append, List.forall_mem_append, List.forall_mem_cons]
    exact ⟨⟨isNumberChar_of_mem_toDigits width, by decide, isNumberChar_of_mem_toDigits height⟩,
      alphabet⟩
  have readWidth : takeNumber false (Nat.toDigits 10 width ++ 'x' ::
      (Nat.toDigits 10 height ++ offset)) = _ := takeNumber_toDigits width (.inl rfl)
  have readHeight := takeNumber_toDigits height ends
  rw [Region.ofChars?, split_append_of_numberChars sizeAlphabet read, toList_sizeText,
    List.append_assoc, List.cons_append]
  simp [Geometry.takeOptional, readWidth, readHeight, readX, readY]

theorem ofChars?_of_offset
    (width height : Nat)
    (offset : List Char)
    {x? y? : Option Int64}
    {rest : List Char}
    (ends : EndsNumber offset)
    (alphabet : ∀ c ∈ offset, IsNumberChar c)
    (readX : Region.takeOffset offset = some (x?, rest))
    (readY : Region.takeOffset rest = some (y?, [])) :
    Region.ofChars? ((sizeText width height).toList ++ offset) =
      some { width := some (whole width), height := some (whole height), x?, y? } := by
  have read := ofChars?_of_marks width height offset ends alphabet readX readY
    (show Modifiers.split [] = ([], .none) from rfl)
  rwa [List.append_nil] at read

/-- Modifiers may stand behind a size. -/
theorem ofChars?_sizeText_append
    (width height : Nat)
    {marks : List Char}
    {m : Modifiers}
    (read : Modifiers.split marks = ([], m)) :
    Region.ofChars? ((sizeText width height).toList ++ marks) =
      some { width := some (whole width), height := some (whole height), modifiers := m } := by
  have region := ofChars?_of_marks width height [] trivial (by simp) rfl rfl read
  rwa [List.append_nil] at region

theorem ofChars?_sizeText
    (width height : Nat) :
    Region.ofChars? (sizeText width height).toList =
      some { width := some (whole width), height := some (whole height) } := by
  have read := ofChars?_of_offset width height [] trivial (by simp) rfl rfl
  rwa [List.append_nil] at read

/-- The text of a size and an offset. -/
def offsetText (width height : Nat) (x y : Int) : String :=
  sizeText width height ++ Integer.withSign x ++ Integer.withSign y

theorem ofChars?_offsetText
    (width height : Nat)
    (x y : Int) :
    Region.ofChars? (offsetText width height x y).toList =
      some
        { width := some (whole width), height := some (whole height)
          x? := some (truncInt64 (signedWhole x)), y? := some (truncInt64 (signedWhole y)) } := by
  have ends (n : Int) (rest : List Char) : EndsNumber ((Integer.withSign n).toList ++ rest) := by
    rw [toList_withSign]
    exact .inr (signOf_eq n)
  have alphabet (n : Int) : ∀ c ∈ (Integer.withSign n).toList, IsNumberChar c := by
    rw [toList_withSign, List.forall_mem_cons]
    refine ⟨?_, isNumberChar_of_mem_toDigits n.natAbs⟩
    rcases signOf_eq n with sign | sign <;> rw [sign] <;> decide
  have readX := takeOffset_withSign x (ends y [])
  have readY := takeOffset_withSign y (show EndsNumber [] from trivial)
  rw [List.append_nil] at readX readY
  rw [offsetText, String.toList_append, String.toList_append, List.append_assoc]
  exact ofChars?_of_offset width height _ (ends x _)
    (List.forall_mem_append.mpr ⟨alphabet x, alphabet y⟩) readX readY

/-- An argument that writes a region is read as it. -/
theorem Invocation.region_of_ofChars?
    {inv : Invocation}
    {text : String}
    {r : Region}
    (given : inv.first? = some text)
    (writes : Region.ofChars? text.toList = some r) :
    inv.region = .ok r := by
  have parsed : Invocation.regionOf text = .ok r := by
    rw [Invocation.regionOf, Region.parse, writes]
    rfl
  simp only [Invocation.region, Invocation.first, given]
  exact parsed

/-! ## Canonical texts -/

/-- How a canonical text writes a page: with a size, or with a size and an offset. -/
inductive WritesPage : String → Page → Prop
  | size
      (width height : UInt64) :
      WritesPage (sizeText width.toNat height.toNat)
        { width := saturated width.toNat, height := saturated height.toNat, x := 0, y := 0 }
  | offset
      (width height : UInt64)
      (x y : Int64) :
      WritesPage (offsetText width.toNat height.toNat x.toInt y.toInt)
        { width := saturated width.toNat, height := saturated height.toNat, x, y }

namespace Page

/-- A text that starts with a digit starts with no paper name. -/
theorem expandPaper_of_digit
    {text : String}
    {first : Char}
    {rest : List Char}
    (start : text.toList = first :: rest)
    (digit : first.isDigit) :
    expandPaper text = text := by
  have letters : ∀ entry ∈ papers, entry.1.toList.head?.any Char.isAlpha := by decide
  have noName : ∀ entry ∈ papers,
      Text.after? entry.1.toList (Text.lower text.toList) = none := by
    intro entry mem
    have letter := letters entry mem
    cases name : entry.1.toList with
    | nil => simp [name] at letter
    | cons c others =>
        have different : c ≠ first.toLower := by
          rintro rfl
          rw [name] at letter
          have noDigit := Text.isDigit_of_isAlpha (Text.isAlpha_of_toLower letter)
          exact absurd digit (by simp [noDigit])
        rw [start, Text.lower, List.map_cons, Text.after?, if_neg different]
  rw [expandPaper, List.findSome?_eq_none_iff.mpr]
  · rfl
  · exact fun entry mem => Option.map_eq_none_iff.mpr (noName entry mem)

theorem parse?_sizeText
    (width height : Nat) :
    parse? (sizeText width height) =
      some
        { width := truncUInt32 (whole width), height := truncUInt32 (whole height)
          x := 0, y := 0 } := by
  rw [parse?, Region.parse?, ofChars?_sizeText]
  rfl

theorem parse?_offsetText
    (width height : Nat)
    (x y : Int) :
    parse? (offsetText width height x y) =
      some
        { width := truncUInt32 (whole width), height := truncUInt32 (whole height)
          x := truncInt64 (signedWhole x), y := truncInt64 (signedWhole y) } := by
  rw [parse?, Region.parse?, ofChars?_offsetText]
  rfl

/-- The canonical text of a region. -/
def canonicalText (r : Region) : String :=
  let width := (truncUInt64 (r.width.getD 0.0)).toNat
  let height := (truncUInt64 ((r.height.orElse fun _ => r.width).getD 0.0)).toNat
  if r.hasOffset then offsetText width height r.x.toInt r.y.toInt else sizeText width height

theorem canonical_eq
    (text : String) :
    canonical text = (Region.parse (expandPaper text)).map canonicalText := by
  unfold canonical
  cases Region.parse (expandPaper text) with
  | error e => rfl
  | ok r =>
      cases offset : r.hasOffset <;>
        simp only [bind, Except.bind, pure, Except.pure, Except.map, canonicalText, offset] <;> rfl

theorem exists_region_of_canonical
    {text written : String}
    (isCanonical : canonical text = .ok written) :
    ∃ s r, Region.ofChars? s = some r ∧ written = canonicalText r := by
  rw [canonical_eq, Region.parse] at isCanonical
  cases read : Region.ofChars? (expandPaper text).toList with
  | none => simp [read, Except.map] at isCanonical
  | some r =>
      simp only [read, Except.map, Except.ok.injEq] at isCanonical
      exact ⟨_, r, read, isCanonical.symm⟩

/-- A text that starts with a digit has the canonical text of its region. -/
theorem canonical_of_digit
    {text : String}
    {first : Char}
    {rest : List Char}
    {r : Region}
    (start : text.toList = first :: rest)
    (digit : first.isDigit)
    (read : Region.ofChars? text.toList = some r) :
    canonical text = .ok (canonicalText r) := by
  rw [canonical_eq, expandPaper_of_digit start digit, Region.parse, read]
  rfl

theorem isReadable_of_takeOffset
    {s rest : List Char}
    {offset? : Option Int64}
    (read : Region.takeOffset s = some (offset?, rest)) :
    IsReadableSigned (offset?.getD 0) := by
  unfold Region.takeOffset at read
  split at read
  · obtain ⟨_, -, taken⟩ := Option.map_eq_some_iff.mp read
    obtain ⟨rfl, -⟩ := Prod.mk.inj taken
    exact isReadable_truncInt64 _
  · obtain ⟨rfl, -⟩ := Prod.mk.inj (Option.some.inj read)
    exact .inl (Binary.isExact_of_le (by decide))

theorem isReadable_of_region
    {s : List Char}
    {r : Region}
    (read : Region.ofChars? s = some r) :
    IsReadableSigned r.x ∧ IsReadableSigned r.y := by
  unfold Region.ofChars? at read
  simp only [bind, Option.bind_eq_some_iff] at read
  obtain ⟨_, readX, _, readY, read⟩ := read
  obtain ⟨-, same⟩ := Option.ite_none_left_eq_some.mp read
  obtain rfl := Option.some.inj same
  exact ⟨isReadable_of_takeOffset readX, isReadable_of_takeOffset readY⟩

theorem exists_digit_of_sizeText
    (width height : Nat)
    (behind : String) :
    ∃ first rest, (sizeText width height ++ behind).toList = first :: rest ∧ first.isDigit := by
  obtain ⟨first, digits, shape⟩ :=
    List.exists_cons_of_ne_nil (Nat.toDigits_ne_nil (b := 10) (n := width))
  refine ⟨first, _, by rw [String.toList_append, toList_sizeText, shape]; rfl, ?_⟩
  exact isDigit_of_mem_toDigits width first (shape ▸ List.mem_cons_self)

section

variable
  {width height : UInt64}
  (widthReadable : IsReadable width)
  (heightReadable : IsReadable height)

include widthReadable heightReadable

theorem canonical_sizeText :
    canonical (sizeText width.toNat height.toNat) =
      .ok (sizeText width.toNat height.toNat) := by
  obtain ⟨first, rest, start, digit⟩ := exists_digit_of_sizeText width.toNat height.toNat ""
  rw [String.append_empty] at start
  rw [canonical_of_digit start digit (ofChars?_sizeText _ _)]
  simp [canonicalText, Region.hasOffset, truncUInt64_whole widthReadable,
    truncUInt64_whole heightReadable]

theorem canonical_offsetText
    {x y : Int64}
    (xReadable : IsReadableSigned x)
    (yReadable : IsReadableSigned y) :
    canonical (offsetText width.toNat height.toNat x.toInt y.toInt) =
      .ok (offsetText width.toNat height.toNat x.toInt y.toInt) := by
  obtain ⟨first, rest, start, digit⟩ := exists_digit_of_sizeText width.toNat height.toNat
    (Integer.withSign x.toInt ++ Integer.withSign y.toInt)
  rw [← String.append_assoc, ← offsetText] at start
  rw [canonical_of_digit start digit (ofChars?_offsetText _ _ _ _)]
  simp [canonicalText, Region.hasOffset, Region.x, Region.y, truncUInt64_whole widthReadable,
    truncUInt64_whole heightReadable, truncInt64_signedWhole xReadable,
    truncInt64_signedWhole yReadable]

end

/-- The text of a region writes a page, is its own canonical form and is read as the page. -/
theorem canonicalText_is_read
    {s : List Char}
    {r : Region}
    (read : Region.ofChars? s = some r) :
    canonical (canonicalText r) = .ok (canonicalText r) ∧
      ∃ p, WritesPage (canonicalText r) p ∧ parse? (canonicalText r) = some p := by
  obtain ⟨xReadable, yReadable⟩ := isReadable_of_region read
  unfold canonicalText
  have widthReadable := isReadable_truncUInt64 (r.width.getD 0.0)
  have heightReadable := isReadable_truncUInt64 ((r.height.orElse fun _ => r.width).getD 0.0)
  generalize truncUInt64 (r.width.getD 0.0) = width at widthReadable
  generalize truncUInt64 ((r.height.orElse fun _ => r.width).getD 0.0) = height at heightReadable
  dsimp only
  split
  · refine ⟨canonical_offsetText widthReadable heightReadable xReadable yReadable, _,
      .offset width height r.x r.y, ?_⟩
    rw [parse?_offsetText, truncUInt32_whole widthReadable, truncUInt32_whole heightReadable,
      truncInt64_signedWhole xReadable, truncInt64_signedWhole yReadable]
  · refine ⟨canonical_sizeText widthReadable heightReadable, _, .size width height, ?_⟩
    rw [parse?_sizeText, truncUInt32_whole widthReadable, truncUInt32_whole heightReadable]

/-- A page whose offsets are exact is read back from its text. -/
theorem parse?_text
    {p : Page}
    (xExact : p.x.toInt.natAbs ≤ 2 ^ 53)
    (yExact : p.y.toInt.natAbs ≤ 2 ^ 53) :
    parse? p.text = some p := by
  have offset {n : Int64} (isExact : n.toInt.natAbs ≤ 2 ^ 53) :
      truncInt64 (signedWhole n.toInt) = n :=
    truncInt64_signedWhole (.inl (Binary.isExact_of_le isExact))
  have read := parse?_offsetText p.width.toNat p.height.toNat p.x.toInt p.y.toInt
  rwa [truncUInt32_whole_toNat, truncUInt32_whole_toNat, offset xExact, offset yExact] at read

/-- A page is read back from its text when its offsets are exact.  A canonical page text is its own
canonical form, and it is read as the page that it writes. -/
theorem page_texts_are_read :
    (∀ p : Page, p.x.toInt.natAbs ≤ 2 ^ 53 → p.y.toInt.natAbs ≤ 2 ^ 53 →
        parse? p.text = some p) ∧
      ∀ text written : String, canonical text = .ok written →
        canonical written = .ok written ∧
          ∃ p, WritesPage written p ∧ parse? written = some p := by
  refine ⟨fun p => parse?_text, fun text written isCanonical => ?_⟩
  obtain ⟨s, r, read, rfl⟩ := exists_region_of_canonical isCanonical
  exact canonicalText_is_read read

/-- A paper with an offset has a canonical text, which stays as it is. -/
theorem letter_page_is_read :
    parse? (text ⟨612, 792, 10, -20⟩) = some ⟨612, 792, 10, -20⟩ ∧
      canonical "letter+10-20" = .ok "612x792+10-20" ∧
      canonical "612x792+10-20" = .ok "612x792+10-20" := by
  have letter : canonical "letter+10-20" = .ok "612x792+10-20" := by decide
  exact ⟨page_texts_are_read.1 ⟨612, 792, 10, -20⟩ (by decide) (by decide), letter,
    (page_texts_are_read.2 _ _ letter).1⟩

end Page
end Darkroom
