import Darkroom.Text.Basic
import Mathlib.Data.List.TakeWhile

/-!
# Cuts of a text

A text is cut at the first mark, at every mark, and at the blanks around it.  Each cut loses nothing
but what it cuts at.
-/

namespace Darkroom
namespace Text

variable {mark : Char} {s : List Char}

/-! ## The first mark -/

theorem cut?_eq_none_iff :
    cut? mark s = none ↔ mark ∉ s := by
  induction s with
  | nil => simp [cut?]
  | cons c rest inductionHypothesis =>
      by_cases same : c = mark
      · simp [cut?, same]
      · simp [cut?, same, Ne.symm same, inductionHypothesis]

/-- A text is cut in two at the first mark. -/
theorem cut?_eq_some_iff
    {head tail : List Char} :
    cut? mark s = some (head, tail) ↔ s = head ++ mark :: tail ∧ mark ∉ head := by
  induction s generalizing head with
  | nil => simp [cut?]
  | cons c rest inductionHypothesis =>
      by_cases same : c = mark
      · subst same
        cases head <;> simp [cut?]
        grind
      · cases head with
        | nil => simp [cut?, same]
        | cons first head =>
            simp only [cut?, same, if_false, Option.map_eq_some_iff, Prod.exists, Prod.mk.injEq,
              List.cons.injEq, List.cons_append, List.mem_cons, not_or]
            constructor
            · rintro ⟨_, _, found, ⟨rfl, rfl⟩, rfl⟩
              obtain ⟨rfl, absent⟩ := inductionHypothesis.mp found
              exact ⟨⟨rfl, rfl⟩, Ne.symm same, absent⟩
            · rintro ⟨⟨rfl, split⟩, -, absent⟩
              exact ⟨head, tail, inductionHypothesis.mpr ⟨split, absent⟩, ⟨rfl, rfl⟩, rfl⟩

theorem takeWhile_append_mark
    {head : List Char}
    (absent : mark ∉ head)
    (tail : List Char) :
    (head ++ mark :: tail).takeWhile (· != mark) = head := by
  have before : ∀ c ∈ head, (c != mark) = true :=
    fun c mem => bne_iff_ne.mpr fun same => absent (same ▸ mem)
  rw [List.takeWhile_append_of_pos before, List.takeWhile_cons_of_neg (by simp), List.append_nil]

theorem dropWhile_append_mark
    {head : List Char}
    (absent : mark ∉ head)
    (tail : List Char) :
    (head ++ mark :: tail).dropWhile (· != mark) = mark :: tail := by
  have before : ∀ c ∈ head, (c != mark) = true :=
    fun c mem => bne_iff_ne.mpr fun same => absent (same ▸ mem)
  rw [List.dropWhile_append_of_pos before, List.dropWhile_cons_of_neg (by simp)]

/-- A beginning without the mark ends in front of it. -/
theorem prefix_of_prefix_append_cons
    {piece front rest : List Char}
    (absent : mark ∉ piece)
    (leads : piece <+: front ++ mark :: rest) :
    piece <+: front := by
  have begins : front ++ [mark] <+: front ++ mark :: rest := ⟨rest, by simp⟩
  rcases Nat.lt_or_ge front.length piece.length with longer | shorter
  · have within : front ++ [mark] <+: piece :=
      List.prefix_of_prefix_length_le begins leads (by simpa using Nat.succ_le_of_lt longer)
    exact absurd (within.mem (List.mem_append_right _ (List.mem_singleton_self mark))) absent
  · exact List.prefix_of_prefix_length_le leads (List.prefix_append _ _) shorter

/-! ## Every mark -/

/-- What stands between two marks stands in the text. -/
theorem mem_of_mem_splitOn
    {piece : List Char}
    {c : Char}
    (isPiece : piece ∈ s.splitOn mark)
    (mem : c ∈ piece) :
    c ∈ s := by
  induction s generalizing piece with
  | nil => simp_all
  | cons first rest inductionHypothesis =>
      rw [List.splitOn_cons_eq_if_modifyHead] at isPiece
      split at isPiece
      · rcases List.mem_cons.mp isPiece with rfl | later
        · simp at mem
        · exact List.mem_cons_of_mem _ (inductionHypothesis later mem)
      · cases pieces : rest.splitOn mark with
        | nil => simp at pieces
        | cons head tail =>
            rw [pieces, List.modifyHead_cons, List.mem_cons] at isPiece
            rcases isPiece with rfl | later
            · rcases List.mem_cons.mp mem with rfl | behind
              · exact List.mem_cons_self
              · exact List.mem_cons_of_mem _
                  (inductionHypothesis (pieces ▸ List.mem_cons_self) behind)
            · exact List.mem_cons_of_mem _
                (inductionHypothesis (pieces ▸ List.mem_cons_of_mem _ later) mem)

/-- No mark stands between two marks. -/
theorem notMem_of_mem_splitOn
    {piece : List Char}
    (isPiece : piece ∈ s.splitOn mark) :
    mark ∉ piece := by
  induction s generalizing piece with
  | nil => simp_all
  | cons first rest inductionHypothesis =>
      rw [List.splitOn_cons_eq_if_modifyHead] at isPiece
      split at isPiece
      · rcases List.mem_cons.mp isPiece with rfl | later
        · exact List.not_mem_nil
        · exact inductionHypothesis later
      · next other =>
        cases pieces : rest.splitOn mark with
        | nil => simp at pieces
        | cons head tail =>
            rw [pieces] at isPiece inductionHypothesis
            rcases List.mem_cons.mp isPiece with rfl | later
            · rw [List.mem_cons, not_or]
              exact ⟨fun same => other (by simp [same]), inductionHypothesis List.mem_cons_self⟩
            · exact inductionHypothesis (List.mem_cons_of_mem _ later)

/-- What stands in a text is a mark or stands between two marks. -/
theorem eq_or_exists_mem_splitOn
    (mark : Char)
    {c : Char}
    (mem : c ∈ s) :
    c = mark ∨ ∃ piece ∈ s.splitOn mark, c ∈ piece := by
  induction s with
  | nil => simp at mem
  | cons first rest inductionHypothesis =>
      rw [List.splitOn_cons_eq_if_modifyHead]
      split
      · next isMark =>
        rcases List.mem_cons.mp mem with rfl | later
        · exact .inl (by simpa using isMark)
        · refine (inductionHypothesis later).imp_right ?_
          rintro ⟨piece, isPiece, inside⟩
          exact ⟨piece, List.mem_cons_of_mem _ isPiece, inside⟩
      · cases pieces : rest.splitOn mark with
        | nil => simp at pieces
        | cons head tail =>
            rw [List.modifyHead_cons]
            rcases List.mem_cons.mp mem with rfl | later
            · exact .inr ⟨_, List.mem_cons_self, List.mem_cons_self⟩
            · refine (inductionHypothesis later).imp_right ?_
              rintro ⟨piece, isPiece, inside⟩
              rcases List.mem_cons.mp (pieces ▸ isPiece) with rfl | behind
              · exact ⟨_, List.mem_cons_self, List.mem_cons_of_mem _ inside⟩
              · exact ⟨piece, List.mem_cons_of_mem _ behind, inside⟩

/-! ## Case -/

/-- What holds of 128 characters holds of every ASCII character. -/
@[elab_as_elim]
theorem ascii_induction
    {motive : Char → Prop}
    {c : Char}
    (ascii : c.toNat < 128)
    (all : ∀ n < 128, motive (Char.ofNat n)) :
    motive c := by
  simpa using all c.toNat ascii

/-- No character beyond the ASCII characters comes before one of them. -/
theorem not_le_of_not_ascii
    {c d : Char}
    (notAscii : 128 ≤ c.toNat)
    (ascii : d.toNat < 128) :
    ¬ c ≤ d := by
  rw [Char.le_def, UInt32.le_iff_toNat_le]
  exact Nat.not_le.mpr (ascii.trans_le notAscii)

/-- Only ASCII characters have a lower case. -/
theorem toLower_of_not_ascii
    {c : Char}
    (notAscii : 128 ≤ c.toNat) :
    c.toLower = c :=
  dif_neg fun upper => not_le_of_not_ascii (d := 'Z') notAscii (by decide) upper.2

/-- A character that is no letter is the lower case of itself alone. -/
theorem eq_of_toLower_eq
    {c : Char}
    (noLetter : mark.isAlpha = false)
    (same : c.toLower = mark) :
    c = mark := by
  subst same
  by_cases ascii : c.toNat < 128
  · have onAscii : c.toLower.isAlpha = false → c = c.toLower :=
      ascii_induction ascii (by decide)
    exact onAscii noLetter
  · exact (toLower_of_not_ascii (Nat.not_lt.mp ascii)).symm

/-- Only a letter has a letter as its lower case. -/
theorem isAlpha_of_toLower
    {c : Char}
    (letter : c.toLower.isAlpha) :
    c.isAlpha := by
  by_cases ascii : c.toNat < 128
  · have onAscii : c.toLower.isAlpha → c.isAlpha := ascii_induction ascii (by decide)
    exact onAscii letter
  · rwa [toLower_of_not_ascii (Nat.not_lt.mp ascii)] at letter

/-! ## The end of a text -/

/-- A text that ends with the mark is what precedes the mark, followed by it. -/
theorem eq_append_of_before?
    {mark text front : List Char}
    (found : before? mark text = some front) :
    text = front ++ mark := by
  obtain ⟨reversed, behind, rfl⟩ := Option.map_eq_some_iff.mp found
  rw [← List.reverse_inj, eq_append_of_after? behind, List.reverse_append, List.reverse_reverse]

/-! ## Blanks around a text -/

theorem isAlpha_iff_toNat
    {c : Char} :
    c.isAlpha ↔ (65 ≤ c.toNat ∧ c.toNat ≤ 90) ∨ (97 ≤ c.toNat ∧ c.toNat ≤ 122) := by
  change (decide (c.val ≥ 65 ∧ c.val ≤ 90) ||
    (decide (c.val ≥ 97) && decide (c.val ≤ 122))) = true ↔ _
  simp [UInt32.le_iff_toNat_le, ← Char.toNat_val]

/-- No letter is a digit. -/
theorem isDigit_of_isAlpha
    {c : Char}
    (letter : c.isAlpha) :
    c.isDigit = false := by
  have bounds := isAlpha_iff_toNat.mp letter
  rw [← Bool.not_eq_true, Char.isDigit_iff_toNat]
  grind

/-- No digit is blank. -/
theorem isBlank_of_isDigit
    {c : Char}
    (digit : c.isDigit) :
    isBlank c = false := by
  have bounds := Char.isDigit_iff_toNat.mp digit
  grind [isBlank]

/-- No letter is blank. -/
theorem isBlank_of_isAlpha
    {c : Char}
    (letter : c.isAlpha) :
    isBlank c = false := by
  have bounds := isAlpha_iff_toNat.mp letter
  grind [isBlank]

theorem dropWhile_isBlank_append
    {before : List Char}
    (blank : ∀ c ∈ before, isBlank c)
    (rest : List Char) :
    (before ++ rest).dropWhile isBlank = rest.dropWhile isBlank :=
  List.dropWhile_append_of_pos blank

/-- Trimming takes blanks off both ends. -/
theorem exists_blanks_around_trim
    (s : List Char) :
    ∃ before behind, (∀ c ∈ before, isBlank c) ∧ (∀ c ∈ behind, isBlank c) ∧
      s = before ++ trim s ++ behind := by
  refine ⟨s.takeWhile isBlank, ((trimStart s).reverse.takeWhile isBlank).reverse, ?_, ?_, ?_⟩
  · exact fun c mem => List.mem_takeWhile_imp mem
  · exact fun c mem => List.mem_takeWhile_imp (List.mem_reverse.mp mem)
  · rw [List.append_assoc, trim, trimEnd, ← List.reverse_append, List.takeWhile_append_dropWhile,
      List.reverse_reverse, trimStart, List.takeWhile_append_dropWhile]

theorem trim_subset
    (s : List Char) :
    trim s ⊆ s := by
  obtain ⟨before, behind, -, -, around⟩ := exists_blanks_around_trim s
  intro c mem
  rw [around]
  exact List.mem_append_left _ (List.mem_append_right _ mem)

/-- A text without blanks is what trimming leaves of it with blanks around. -/
theorem trim_of_blanks_around
    {before word behind : List Char}
    (blankBefore : ∀ c ∈ before, isBlank c)
    (solid : ∀ c ∈ word, isBlank c = false)
    (blankBehind : ∀ c ∈ behind, isBlank c) :
    trim (before ++ word ++ behind) = word := by
  have front {solidWord : List Char} (solid : ∀ c ∈ solidWord, isBlank c = false) :
      solidWord.dropWhile isBlank = solidWord := by
    cases solidWord with
    | nil => rfl
    | cons c rest => simp [solid c List.mem_cons_self]
  rw [trim, trimStart, List.append_assoc, dropWhile_isBlank_append blankBefore]
  cases word with
  | nil =>
      have nothing : behind.dropWhile isBlank = [] := by
        simpa using dropWhile_isBlank_append blankBehind []
      simp [trimEnd, nothing]
  | cons c rest =>
      have stays : (c :: rest ++ behind).dropWhile isBlank = c :: rest ++ behind := by
        simp [solid c List.mem_cons_self]
      have reversed : ∀ c' ∈ (c :: rest).reverse, isBlank c' = false :=
        fun c' mem => solid c' (List.mem_reverse.mp mem)
      rw [stays, trimEnd, List.reverse_append,
        dropWhile_isBlank_append (by simpa using blankBehind), front reversed,
        List.reverse_reverse]

theorem trim_of_solid
    (solid : ∀ c ∈ s, isBlank c = false) :
    trim s = s := by
  have none : ∀ c ∈ [], isBlank c = true := List.forall_mem_nil _
  simpa using trim_of_blanks_around none solid none

theorem trimEnd_of_solid
    (solid : ∀ c ∈ s, isBlank c = false) :
    trimEnd s = s := by
  rw [trimEnd, List.dropWhile_eq_self_iff.mpr, List.reverse_reverse]
  intro nonempty
  rw [solid _ (List.mem_reverse.mp (List.getElem_mem nonempty))]
  decide

/-- A first character that is not blank stays. -/
theorem trim_cons
    {c : Char}
    (solid : isBlank c = false)
    (rest : List Char) :
    trim (c :: rest) = c :: trimEnd rest := by
  rw [trim, trimStart, List.dropWhile_cons_of_neg (by simp [solid]), trimEnd, trimEnd,
    List.reverse_cons, List.dropWhile_append]
  split
  · next allBlank => simp [List.isEmpty_iff.mp allBlank, solid]
  · simp

/-- What is left starts with no blank. -/
theorem not_blank_of_trim
    {first : Char}
    {rest : List Char}
    (trimmed : trim s = first :: rest) :
    isBlank first = false := by
  cases start : s.dropWhile isBlank with
  | nil => simp [trim, trimStart, start, trimEnd] at trimmed
  | cons c behind =>
      have solid : isBlank c = false := by
        have nonempty : s.dropWhile isBlank ≠ [] := by simp [start]
        simpa only [start, List.head_cons] using List.head_dropWhile_not isBlank nonempty
      have same : trim (c :: behind) = trim s := by
        rw [trim, trim, trimStart, trimStart, start, List.dropWhile_cons_of_neg (by simp [solid])]
      rw [← same, trim_cons solid] at trimmed
      exact (List.cons.inj trimmed).1 ▸ solid

/-- Nothing is left of blanks. -/
theorem trim_eq_nil_iff :
    trim s = [] ↔ ∀ c ∈ s, isBlank c := by
  constructor
  · intro nothing
    obtain ⟨before, behind, blankBefore, blankBehind, around⟩ := exists_blanks_around_trim s
    rw [nothing, List.append_nil] at around
    rw [around]
    exact fun c mem => (List.mem_append.mp mem).elim (blankBefore c) (blankBehind c)
  · intro blank
    have left : trim (s ++ [] ++ []) = [] := trim_of_blanks_around blank (by simp) (by simp)
    rwa [List.append_nil, List.append_nil] at left

end Text
end Darkroom
