import Darkroom.Color.Parser
import Darkroom.Proofs.Text
import Mathlib.Data.Nat.Digits.Defs
import Mathlib.Tactic.IntervalCases

/-!
# Colors in hexadecimal

What hexadecimal digits mean is stated here on its own: three groups or four of one, two or four
digits each, where a digit alone stands for a pair of it and four digits count by their high byte.
A text behind the mark `#` is read exactly when it is written in such groups, blanks at its end
aside.  Every color is written in pairs, so it is read back from its own text, whatever the case of
the digits and whatever blanks stand around it.
-/

namespace Darkroom
namespace Color

/-! ## Digits -/

/-- The digits in the order of their values. -/
def hexDigits : List Char := "0123456789abcdef".toList

/-- A hexadecimal digit, in either case. -/
def IsHexDigit (c : Char) : Prop :=
  c.toLower ∈ hexDigits

instance : DecidablePred IsHexDigit :=
  fun c => inferInstanceAs (Decidable (c.toLower ∈ hexDigits))

/-- The value of a digit. -/
def hexValue (c : Char) : Nat :=
  hexDigits.idxOf c.toLower

/-- The number that digits write, the last of them for units. -/
def hexNumber (digits : List Char) : Nat :=
  Nat.ofDigits 16 (digits.reverse.map hexValue)

/-- The channel value that a group of digits writes: a digit alone stands for a pair of it, and of
four digits the high byte counts. -/
def level (group : List Char) : UInt8 :=
  UInt8.ofNat
    (if group.length = 1 then 17 * hexNumber group
      else if group.length = 4 then hexNumber group / 256
      else hexNumber group)

/-- Every group is made of so many digits. -/
def Groups (width : Nat) (groups : List (List Char)) : Prop :=
  ∀ group ∈ groups, group.length = width ∧ ∀ c ∈ group, IsHexDigit c

/-- How digits write a color: in groups of one, two or four of them, red first; without a group for
the coverage the color covers fully. -/
inductive WritesHex : List Char → Color → Prop
  | solid
      {width : Nat}
      {red green blue : List Char}
      (known : width = 1 ∨ width = 2 ∨ width = 4)
      (groups : Groups width [red, green, blue]) :
      WritesHex (red ++ green ++ blue) ⟨level red, level green, level blue, 255⟩
  | covering
      {width : Nat}
      {red green blue alpha : List Char}
      (known : width = 1 ∨ width = 2 ∨ width = 4)
      (groups : Groups width [red, green, blue, alpha]) :
      WritesHex (red ++ green ++ blue ++ alpha)
        ⟨level red, level green, level blue, level alpha⟩

/-- Beyond the ASCII characters there is no digit. -/
theorem hexValue?_of_not_ascii
    {c : Char}
    (notAscii : 128 ≤ c.toNat) :
    hexValue? c = none ∧ ¬ IsHexDigit c := by
  have above (d : Char) (ascii : d.toNat < 128) : ¬ c ≤ d :=
    Text.not_le_of_not_ascii notAscii ascii
  have noDigit : c.isDigit = false := by
    simp only [Char.isDigit, Bool.and_eq_false_iff, decide_eq_false_iff_not]
    exact .inr (above '9' (by decide))
  constructor
  · simp [hexValue?, noDigit, above 'f' (by decide), above 'F' (by decide)]
  · have ascii : ∀ d ∈ hexDigits, d.toNat < 128 := by decide
    rw [IsHexDigit, Text.toLower_of_not_ascii notAscii]
    exact fun mem => Nat.not_lt.mpr notAscii (ascii c mem)

theorem hexValue?_eq
    (c : Char) :
    hexValue? c = if IsHexDigit c then some (hexValue c) else none := by
  by_cases ascii : c.toNat < 128
  · exact Text.ascii_induction ascii (by decide +kernel)
  · obtain ⟨unread, noDigit⟩ := hexValue?_of_not_ascii (Nat.not_lt.mp ascii)
    rw [unread, if_neg noDigit]

theorem hexValue_lt
    {c : Char}
    (isDigit : IsHexDigit c) :
    hexValue c < 16 :=
  List.idxOf_lt_length_of_mem isDigit

theorem mapM_hexValue?_eq_some_iff
    {s : List Char}
    {values : List Nat} :
    s.mapM hexValue? = some values ↔ (∀ c ∈ s, IsHexDigit c) ∧ s.map hexValue = values := by
  induction s generalizing values with
  | nil => simp
  | cons c rest inductionHypothesis =>
      rw [List.mapM_cons, hexValue?_eq, List.forall_mem_cons]
      by_cases isDigit : IsHexDigit c
      · cases values with
        | nil => simp [isDigit, Option.bind_eq_some_iff]
        | cons value values =>
            simp [isDigit, Option.bind_eq_some_iff, inductionHypothesis, and_left_comm]
      · simp [isDigit]

/-! ## Groups -/

theorem Groups.nil
    (width : Nat) :
    Groups width [] := by
  simp [Groups]

theorem groups_cons_iff
    {width : Nat}
    {group : List Char}
    {groups : List (List Char)} :
    Groups width (group :: groups) ↔
      (group.length = width ∧ ∀ c ∈ group, IsHexDigit c) ∧ Groups width groups :=
  List.forall_mem_cons

theorem Groups.digits
    {width : Nat}
    {groups : List (List Char)}
    (isGroups : Groups width groups) :
    ∀ c ∈ groups.flatten, IsHexDigit c := by
  intro c mem
  obtain ⟨group, isGroup, mem⟩ := List.mem_flatten.mp mem
  exact (isGroups group isGroup).2 c mem

theorem Groups.length_flatten
    {width : Nat}
    {groups : List (List Char)}
    (isGroups : Groups width groups) :
    groups.flatten.length = groups.length * width := by
  induction groups with
  | nil => simp
  | cons group groups inductionHypothesis =>
      obtain ⟨⟨length, -⟩, others⟩ := groups_cons_iff.mp isGroups
      rw [List.flatten_cons, List.length_append, length, inductionHypothesis others,
        List.length_cons, Nat.succ_mul, Nat.add_comm]

/-- Digits whose number is a multiple of the width make up groups. -/
theorem exists_groups
    {width count : Nat}
    {s : List Char}
    (digits : ∀ c ∈ s, IsHexDigit c)
    (length : s.length = count * width) :
    ∃ groups, Groups width groups ∧ groups.length = count ∧ s = groups.flatten := by
  induction count generalizing s with
  | zero =>
      rw [Nat.zero_mul, List.length_eq_zero_iff] at length
      exact ⟨[], .nil width, rfl, length⟩
  | succ count inductionHypothesis =>
      rw [Nat.succ_mul] at length
      obtain ⟨groups, isGroups, counted, rest⟩ := inductionHypothesis
        (fun c mem => digits c (List.mem_of_mem_drop mem))
        (by rw [List.length_drop, length, Nat.add_sub_cancel] : (s.drop width).length = _)
      refine ⟨s.take width :: groups, groups_cons_iff.mpr ⟨⟨?_, ?_⟩, isGroups⟩,
        by simp [counted], ?_⟩
      · rw [List.length_take, length]
        omega
      · exact fun c mem => digits c (List.mem_of_mem_take mem)
      · rw [List.flatten_cons, ← rest, List.take_append_drop]

/-! ## Reading groups -/

theorem level_single
    (a : Char) :
    level [a] = UInt8.ofNat (17 * hexValue a) := by
  simp [level, hexNumber]

theorem level_pair
    (a b : Char) :
    level [a, b] = UInt8.ofNat (16 * hexValue a + hexValue b) := by
  simp [level, hexNumber, Nat.ofDigits_cons, Nat.add_comm]

theorem level_quad
    {a b c d : Char}
    (third : IsHexDigit c)
    (fourth : IsHexDigit d) :
    level [a, b, c, d] = UInt8.ofNat (16 * hexValue a + hexValue b) := by
  have high : hexNumber [a, b, c, d] / 256 = 16 * hexValue a + hexValue b := by
    have thirdLess := hexValue_lt third
    have fourthLess := hexValue_lt fourth
    simp only [hexNumber, List.reverse_cons, List.reverse_nil, List.nil_append, List.cons_append,
      List.map_cons, List.map_nil, Nat.ofDigits_cons, Nat.ofDigits_nil]
    omega
  simp [level, high]

theorem ofSingles_flatten
    {groups : List (List Char)}
    (isGroups : Groups 1 groups) :
    ofSingles (groups.flatten.map hexValue) = groups.map level := by
  induction groups with
  | nil => rfl
  | cons group groups inductionHypothesis =>
      obtain ⟨⟨length, -⟩, others⟩ := groups_cons_iff.mp isGroups
      obtain ⟨a, rfl⟩ := List.length_eq_one_iff.mp length
      simpa [ofSingles, level_single] using inductionHypothesis others

theorem ofPairs_flatten
    {groups : List (List Char)}
    (isGroups : Groups 2 groups) :
    ofPairs (groups.flatten.map hexValue) = groups.map level := by
  induction groups with
  | nil => rfl
  | cons group groups inductionHypothesis =>
      obtain ⟨⟨length, -⟩, others⟩ := groups_cons_iff.mp isGroups
      match group, length with
      | [a, b], _ => simpa [ofPairs, level_pair] using inductionHypothesis others

theorem ofQuads_flatten
    {groups : List (List Char)}
    (isGroups : Groups 4 groups) :
    ofQuads (groups.flatten.map hexValue) = groups.map level := by
  induction groups with
  | nil => rfl
  | cons group groups inductionHypothesis =>
      obtain ⟨⟨length, digits⟩, others⟩ := groups_cons_iff.mp isGroups
      match group, length with
      | [a, b, c, d], _ =>
        simpa [ofQuads, level_quad (digits c (by simp)) (digits d (by simp))] using
          inductionHypothesis others

theorem hex?_flatten
    {width : Nat}
    {groups : List (List Char)}
    (known : width = 1 ∨ width = 2 ∨ width = 4)
    (counted : groups.length = 3 ∨ groups.length = 4)
    (isGroups : Groups width groups) :
    hex? groups.flatten = ofChannels? (groups.map level) := by
  have length : (groups.flatten.map hexValue).length = groups.length * width := by
    rw [List.length_map, isGroups.length_flatten]
  rw [hex?, mapM_hexValue?_eq_some_iff.mpr ⟨isGroups.digits, rfl⟩, Option.bind_some, length]
  rcases known with rfl | rfl | rfl
  · rw [if_pos (by omega), ofSingles_flatten isGroups]
  · rw [if_neg (by omega), if_pos (by omega), ofPairs_flatten isGroups]
  · rw [if_neg (by omega), if_neg (by omega), if_pos (by omega), ofQuads_flatten isGroups]

/-- What is read as a color is made of three groups or four. -/
theorem exists_groups_of_hex?
    {s : List Char}
    {c : Color}
    (read : hex? s = some c) :
    ∃ width groups, (width = 1 ∨ width = 2 ∨ width = 4) ∧
      (groups.length = 3 ∨ groups.length = 4) ∧ Groups width groups ∧ s = groups.flatten := by
  obtain ⟨values, readDigits, read⟩ := Option.bind_eq_some_iff.mp read
  obtain ⟨digits, rfl⟩ := mapM_hexValue?_eq_some_iff.mp readDigits
  have length : ∃ width count, (width = 1 ∨ width = 2 ∨ width = 4) ∧ (count = 3 ∨ count = 4) ∧
      s.length = count * width := by
    rw [List.length_map] at read
    split at read
    · next single => exact ⟨1, s.length, by omega, single, by omega⟩
    split at read
    · next double => exact ⟨2, s.length / 2, by omega, by omega, by omega⟩
    split at read
    · next quadruple => exact ⟨4, s.length / 4, by omega, by omega, by omega⟩
    · cases read
  obtain ⟨width, count, known, counted, length⟩ := length
  obtain ⟨groups, isGroups, rfl, rfl⟩ := exists_groups digits length
  exact ⟨width, groups, known, counted, isGroups, rfl⟩

/-- Digits are read exactly as they write a color. -/
theorem hex?_eq_some_iff
    {s : List Char}
    {c : Color} :
    hex? s = some c ↔ WritesHex s c := by
  constructor
  · intro read
    obtain ⟨width, groups, known, counted, isGroups, rfl⟩ := exists_groups_of_hex? read
    rw [hex?_flatten known counted isGroups] at read
    match groups, counted with
    | [red, green, blue], _ =>
      obtain rfl := Option.some.inj read
      simpa using WritesHex.solid known isGroups
    | [red, green, blue, alpha], _ =>
      obtain rfl := Option.some.inj read
      simpa using WritesHex.covering known isGroups
  · intro written
    cases written with
    | @solid width red green blue known groups =>
        simpa [ofChannels?] using hex?_flatten known (.inl rfl) groups
    | @covering width red green blue alpha known groups =>
        simpa [ofChannels?] using hex?_flatten known (.inr rfl) groups

/-- Groups are read whenever there are three of them or four. -/
theorem exists_hex?_flatten
    {width : Nat}
    {groups : List (List Char)}
    (known : width = 1 ∨ width = 2 ∨ width = 4)
    (counted : groups.length = 3 ∨ groups.length = 4)
    (isGroups : Groups width groups) :
    ∃ c, hex? groups.flatten = some c ∧ ofChannels? (groups.map level) = some c := by
  rw [hex?_flatten known counted isGroups]
  match groups, counted with
  | [red, green, blue], _ => exact ⟨_, rfl, rfl⟩
  | [red, green, blue, alpha], _ => exact ⟨_, rfl, rfl⟩

/-- Digits are read exactly when their number is one of six. -/
theorem exists_hex?_iff
    {s : List Char} :
    (∃ c, hex? s = some c) ↔
      (∀ c ∈ s, IsHexDigit c) ∧ s.length ∈ [3, 4, 6, 8, 12, 16] := by
  constructor
  · rintro ⟨c, read⟩
    obtain ⟨width, groups, known, counted, isGroups, rfl⟩ := exists_groups_of_hex? read
    refine ⟨isGroups.digits, ?_⟩
    rw [isGroups.length_flatten]
    rcases known with rfl | rfl | rfl <;> rcases counted with count | count <;> simp [count]
  · rintro ⟨digits, length⟩
    have grouped : ∃ width count, (width = 1 ∨ width = 2 ∨ width = 4) ∧
        (count = 3 ∨ count = 4) ∧ s.length = count * width := by
      simp only [List.mem_cons, List.not_mem_nil, or_false] at length
      rcases length with length | length | length | length | length | length
      · exact ⟨1, 3, by omega, by omega, length⟩
      · exact ⟨1, 4, by omega, by omega, length⟩
      · exact ⟨2, 3, by omega, by omega, length⟩
      · exact ⟨2, 4, by omega, by omega, length⟩
      · exact ⟨4, 3, by omega, by omega, length⟩
      · exact ⟨4, 4, by omega, by omega, length⟩
    obtain ⟨width, count, known, counted, length⟩ := grouped
    obtain ⟨groups, isGroups, rfl, rfl⟩ := exists_groups digits length
    obtain ⟨c, read, -⟩ := exists_hex?_flatten known counted isGroups
    exact ⟨c, read⟩

/-! ## Groups written twice -/

theorem Groups.twice
    {width : Nat}
    {groups : List (List Char)}
    (isGroups : Groups width groups) :
    Groups (2 * width) (groups.map fun group => group ++ group) := by
  intro group mem
  obtain ⟨once, isGroup, rfl⟩ := List.mem_map.mp mem
  obtain ⟨length, digits⟩ := isGroups once isGroup
  refine ⟨by rw [List.length_append, length, Nat.two_mul], fun c mem => ?_⟩
  exact (List.mem_append.mp mem).elim (digits c) (digits c)

/-- A digit means the pair of it, and a pair the high byte of two pairs. -/
theorem level_twice
    {group : List Char}
    (short : group.length = 1 ∨ group.length = 2)
    (digits : ∀ c ∈ group, IsHexDigit c) :
    level (group ++ group) = level group := by
  match group, short with
  | [a], _ =>
    rw [List.singleton_append, level_pair, level_single]
    congr 1
    omega
  | [a, b], _ =>
    rw [level_pair]
    exact level_quad (digits a (by simp)) (digits b (by simp))

/-! ## Written colors -/

theorem hexDigit_value
    {n : UInt8}
    (less : n < 16) :
    IsHexDigit (hexDigit n) ∧ hexValue (hexDigit n) = n.toNat := by
  have all : ∀ n : Fin 16, IsHexDigit (hexDigit (UInt8.ofNat n)) ∧
      hexValue (hexDigit (UInt8.ofNat n)) = n := by
    decide
  simpa using all ⟨n.toNat, UInt8.lt_iff_toNat_lt.mp less⟩

theorem hexPair_group
    (b : UInt8) :
    ((hexPair b).length = 2 ∧ ∀ c ∈ hexPair b, IsHexDigit c) ∧ level (hexPair b) = b := by
  have high : b / 16 < 16 := by
    rw [UInt8.lt_iff_toNat_lt, UInt8.toNat_div]
    have := b.toNat_lt
    change b.toNat / 16 < 16
    omega
  have low : b % 16 < 16 := UInt8.mod_lt b (by decide)
  obtain ⟨highDigit, highValue⟩ := hexDigit_value high
  obtain ⟨lowDigit, lowValue⟩ := hexDigit_value low
  refine ⟨⟨rfl, by simp [hexPair, highDigit, lowDigit]⟩, ?_⟩
  rw [hexPair, level_pair, highValue, lowValue]
  apply UInt8.toNat_inj.mp
  rw [UInt8.toNat_ofNat', UInt8.toNat_div, UInt8.toNat_mod]
  change (16 * (b.toNat / 16) + b.toNat % 16) % 256 = b.toNat
  rw [Nat.div_add_mod, Nat.mod_eq_of_lt b.toNat_lt]

/-- The digits of a written color write it. -/
theorem writesHex_chars
    (c : Color) :
    ∃ digits, c.chars = '#' :: digits ∧ WritesHex digits c := by
  obtain ⟨red, green, blue, alpha⟩ := c
  have group (b : UInt8) := (hexPair_group b).1
  have value (b : UInt8) := (hexPair_group b).2
  by_cases solid : alpha = 255
  · refine ⟨hexPair red ++ hexPair green ++ hexPair blue, by simp [chars, isSolid, solid], ?_⟩
    have written := WritesHex.solid (.inr (.inl rfl))
      (groups_cons_iff.mpr ⟨group red, groups_cons_iff.mpr ⟨group green,
        groups_cons_iff.mpr ⟨group blue, .nil 2⟩⟩⟩)
    rwa [value, value, value, ← solid] at written
  · refine ⟨hexPair red ++ hexPair green ++ hexPair blue ++ hexPair alpha,
      by simp [chars, isSolid, solid], ?_⟩
    have written := WritesHex.covering (.inr (.inl rfl))
      (groups_cons_iff.mpr ⟨group red, groups_cons_iff.mpr ⟨group green,
        groups_cons_iff.mpr ⟨group blue, groups_cons_iff.mpr ⟨group alpha, .nil 2⟩⟩⟩⟩)
    rwa [value, value, value, value] at written

/-! ## Texts -/

theorem isBlank_of_isHexDigit
    {c : Char}
    (isDigit : IsHexDigit c) :
    Text.isBlank c = false := by
  by_cases ascii : c.toNat < 128
  · have onAscii : IsHexDigit c → Text.isBlank c = false :=
      Text.ascii_induction ascii (by decide +kernel)
    exact onAscii isDigit
  · exact absurd isDigit (hexValue?_of_not_ascii (Nat.not_lt.mp ascii)).2

/-- Digits are told apart by their lower case only. -/
theorem hex?_congr
    {s t : List Char}
    (same : Text.lower s = Text.lower t) :
    hex? s = hex? t := by
  have values (s : List Char) : s.mapM hexValue? =
      (Text.lower s).mapM fun c => if c ∈ hexDigits then some (hexDigits.idxOf c) else none := by
    rw [Text.lower, List.mapM_map]
    congr 1
    funext c
    exact hexValue?_eq c
  rw [hex?, hex?, values, values, same]

theorem ofChars?_of_mark
    {s digits : List Char}
    (trimmed : Text.trim s = '#' :: digits) :
    ofChars? s = hex? digits := by
  unfold ofChars?
  rw [trimmed]
  rfl

/-- Behind the mark, digits are read without the blanks at the end. -/
theorem parse_mark_eq_ok_iff
    {h : String}
    {c : Color} :
    parse ("#" ++ h) = .ok c ↔ WritesHex (Text.trimEnd h.toList) c := by
  have marked : Text.trim ("#" ++ h).toList = '#' :: Text.trimEnd h.toList := by
    rw [String.toList_append]
    exact Text.trim_cons (by decide) h.toList
  rw [parse, ofChars?_of_mark marked, ← hex?_eq_some_iff]
  cases hex? (Text.trimEnd h.toList) <;> simp

/-- Every color is read back from its text, in any case of the letters and with blanks around it. -/
theorem parse_written
    {c : Color}
    {before word behind : String}
    (blankBefore : ∀ b ∈ before.toList, Text.isBlank b)
    (sameLetters : sameWord word c.text)
    (blankBehind : ∀ b ∈ behind.toList, Text.isBlank b) :
    parse (before ++ word ++ behind) = .ok c := by
  obtain ⟨digits, marked, written⟩ := writesHex_chars c
  have same : Text.lower word.toList = '#' :: Text.lower digits := by
    simpa [sameWord, Text.sameIgnoringCase, text, marked, Text.lower] using sameLetters
  cases letters : word.toList with
  | nil => simp [letters, Text.lower] at same
  | cons first rest =>
      rw [letters, Text.lower, List.map_cons, List.cons.injEq] at same
      obtain ⟨firstSame, restSame⟩ := same
      obtain rfl := Text.eq_of_toLower_eq (by decide) firstSame
      have read : hex? rest = some c := by
        rw [hex?_congr restSame]
        exact hex?_eq_some_iff.mpr written
      have solid : ∀ b ∈ '#' :: rest, Text.isBlank b = false := by
        rw [List.forall_mem_cons]
        exact ⟨by decide, fun b mem =>
          isBlank_of_isHexDigit ((exists_hex?_iff.mp ⟨c, read⟩).1 b mem)⟩
      have trimmed : Text.trim (before ++ word ++ behind).toList = '#' :: rest := by
        rw [String.toList_append, String.toList_append, letters]
        exact Text.trim_of_blanks_around blankBefore solid blankBehind
      rw [parse, ofChars?_of_mark trimmed, read]

/-- Every color is read back from its text, in any case of the letters and with blanks around it.
Behind the mark, a text is read exactly when, blanks at its end aside, it is made of 3, 4, 6, 8, 12
or 16 digits, and it means the color that its groups write.  So short groups can be written twice
without a change. -/
theorem hexadecimal_forms :
    (∀ (c : Color) (before word behind : String), (∀ b ∈ before.toList, Text.isBlank b) →
        sameWord word c.text → (∀ b ∈ behind.toList, Text.isBlank b) →
        parse (before ++ word ++ behind) = .ok c) ∧
      (∀ h : String, (∃ c, parse ("#" ++ h) = .ok c) ↔
        (∀ d ∈ Text.trimEnd h.toList, IsHexDigit d) ∧
          (Text.trimEnd h.toList).length ∈ [3, 4, 6, 8, 12, 16]) ∧
      (∀ (h : String) (c : Color),
        parse ("#" ++ h) = .ok c ↔ WritesHex (Text.trimEnd h.toList) c) ∧
      ∀ (width : Nat) (groups : List (List Char)), width = 1 ∨ width = 2 →
        groups.length = 3 ∨ groups.length = 4 → Groups width groups →
        ∃ c, parse ("#" ++ String.ofList groups.flatten) = .ok c ∧
          parse ("#" ++ String.ofList (groups.map fun group => group ++ group).flatten) =
            .ok c := by
  refine ⟨fun c before word behind => parse_written, fun h => ?_, fun h c => parse_mark_eq_ok_iff,
    fun width groups short counted isGroups => ?_⟩
  · simp only [parse_mark_eq_ok_iff, ← hex?_eq_some_iff, exists_hex?_iff]
  · have read {digits : List Char} (isDigits : ∀ d ∈ digits, IsHexDigit d) {c : Color}
        (found : hex? digits = some c) : parse ("#" ++ String.ofList digits) = .ok c := by
      rw [parse_mark_eq_ok_iff, String.toList_ofList, Text.trimEnd_of_solid fun d mem =>
        isBlank_of_isHexDigit (isDigits d mem), ← hex?_eq_some_iff]
      exact found
    have levels : (groups.map fun group => group ++ group).map level = groups.map level := by
      rw [List.map_map]
      refine List.map_congr_left fun group mem => level_twice ?_ (isGroups group mem).2
      rw [(isGroups group mem).1]
      exact short
    obtain ⟨c, once, value⟩ := exists_hex?_flatten (by omega) counted isGroups
    obtain ⟨d, twice, sameValue⟩ := exists_hex?_flatten (by omega)
      (by simpa using counted) isGroups.twice
    rw [levels, value, Option.some.injEq] at sameValue
    subst sameValue
    exact ⟨c, read isGroups.digits once, read isGroups.twice.digits twice⟩

/-- White with its letters in both cases between a tab and a line feed, and two short forms. -/
theorem white_in_several_forms :
    (∀ b ∈ "\t".toList, Text.isBlank b) ∧ sameWord "#fFFfFf" white.text ∧
      (∀ b ∈ " \n".toList, Text.isBlank b) ∧ parse ("\t" ++ "#fFFfFf" ++ " \n") = .ok white ∧
      Groups 1 [['f'], ['8'], ['0']] ∧
      ∃ c, parse "#f80" = .ok c ∧ parse "#ff8800" = .ok c := by
  have blankBefore : ∀ b ∈ "\t".toList, Text.isBlank b := by decide
  have blankBehind : ∀ b ∈ " \n".toList, Text.isBlank b := by decide
  have sameLetters : sameWord "#fFFfFf" white.text := by decide
  have groups : Groups 1 [['f'], ['8'], ['0']] := by
    simp only [groups_cons_iff]
    exact ⟨by decide, by decide, by decide, .nil 1⟩
  obtain ⟨written, -, -, short⟩ := hexadecimal_forms
  exact ⟨blankBefore, sameLetters, blankBehind,
    written white "\t" "#fFFfFf" " \n" blankBefore sameLetters blankBehind, groups,
    short 1 [['f'], ['8'], ['0']] (.inl rfl) (.inl rfl) groups⟩

end Color
end Darkroom
