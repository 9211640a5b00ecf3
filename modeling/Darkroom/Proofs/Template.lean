import Darkroom.Proofs.Text
import Darkroom.Template

/-!
# What templates mean

A template is a sequence of tokens: characters that stand for themselves, a backslash with the
character behind it, a percent sign with a letter, and a percent sign with a name in square
brackets.  Only its end can be unfinished: a backslash or a percent sign alone, or a name whose
bracket is not closed.  No token is the beginning of another, so a template ends between two tokens
or inside of one, and never both.

Each token is expanded by itself.  So templates that end between two tokens are expanded apart from
what follows them, what is put in for a token is not looked at again, and a text whose percent signs
and backslashes are doubled is expanded to itself.
-/

namespace Darkroom
namespace Template

/-! ## Tokens -/

/-- A token of a template. -/
inductive Token where
  /-- A character that stands for itself. -/
  | plain (c : Char) (ordinary : c ≠ '\\' ∧ c ≠ '%')
  /-- A backslash and the character behind it. -/
  | backslash (c : Char)
  /-- A percent sign and one letter. -/
  | letter (key : Char) (single : key ≠ '[')
  /-- A percent sign and a name in square brackets. -/
  | named (name : List Char) (closed : ']' ∉ name)

/-- How a token is written. -/
def Token.text : Token → List Char
  | plain c _ => [c]
  | backslash c => ['\\', c]
  | letter key _ => ['%', key]
  | named name _ => '%' :: '[' :: (name ++ [']'])

/-- How a token begins when the template ends inside of it. -/
inductive Unfinished : List Char → Prop
  | backslash : Unfinished ['\\']
  | percent : Unfinished ['%']
  | name
      {name : List Char}
      (isOpen : ']' ∉ name) :
      Unfinished ('%' :: '[' :: name)

/-- The template is a sequence of tokens. -/
def EndsBetween (template : List Char) : Prop :=
  ∃ tokens : List Token, template = tokens.flatMap Token.text

/-- The template is a sequence of tokens and the beginning of one more: it ends inside an open
`%[`, behind a lone percent sign or behind a lone backslash. -/
def EndsInside (template : List Char) : Prop :=
  ∃ (tokens : List Token) (tail : List Char),
    Unfinished tail ∧ template = tokens.flatMap Token.text ++ tail

theorem Token.endsBetween
    (token : Token) :
    EndsBetween token.text :=
  ⟨[token], by simp⟩

theorem EndsBetween.append
    {a b : List Char}
    (first : EndsBetween a)
    (second : EndsBetween b) :
    EndsBetween (a ++ b) := by
  obtain ⟨tokens, rfl⟩ := first
  obtain ⟨others, rfl⟩ := second
  exact ⟨tokens ++ others, List.flatMap_append.symm⟩

/-- A token in front changes nothing about the end. -/
theorem ends_append
    (token : Token)
    {rest : List Char}
    (ends : EndsBetween rest ∨ EndsInside rest) :
    EndsBetween (token.text ++ rest) ∨ EndsInside (token.text ++ rest) := by
  rcases ends with between | ⟨tokens, tail, unfinished, rfl⟩
  · exact .inl (token.endsBetween.append between)
  · exact .inr ⟨token :: tokens, tail, unfinished, by simp⟩

theorem endsBetween_or_endsInside
    (template : List Char) :
    EndsBetween template ∨ EndsInside template := by
  induction template using pieces.induct with
  | case1 => exact .inl ⟨[], rfl⟩
  | case2 => exact .inr ⟨[], _, .backslash, rfl⟩
  | case3 => exact .inr ⟨[], _, .percent, rfl⟩
  | case4 c rest inductionHypothesis => exact ends_append (.backslash c) inductionHypothesis
  | case5 rest inductionHypothesis =>
      cases cut : Text.cut? ']' rest with
      | none => exact .inr ⟨[], _, .name (Text.cut?_eq_none_iff.mp cut), rfl⟩
      | some parts =>
          obtain ⟨name, behind⟩ := parts
          obtain ⟨rfl, closed⟩ := Text.cut?_eq_some_iff.mp cut
          rw [Text.dropWhile_append_mark closed, List.drop_one, List.tail_cons]
            at inductionHypothesis
          simpa [Token.text] using ends_append (.named name closed) inductionHypothesis
  | case6 key rest single inductionHypothesis =>
      exact ends_append (.letter key single) inductionHypothesis
  | case7 c rest noBackslash noPercent noEscape noName noLetter inductionHypothesis =>
      have ordinary : c ≠ '\\' ∧ c ≠ '%' := by
        cases rest with
        | nil => exact ⟨fun same => noBackslash same rfl, fun same => noPercent same rfl⟩
        | cons next rest =>
            exact ⟨fun same => noEscape _ _ same rfl, fun same => noLetter _ _ same rfl⟩
      exact ends_append (.plain c ordinary) inductionHypothesis

/-- What follows a token is told apart from it in one way only. -/
theorem Token.rest_eq
    {first second : Token}
    {rest others : List Char}
    (same : first.text ++ rest = second.text ++ others) :
    rest = others := by
  cases first <;> cases second
  case named.named name closed other otherClosed =>
    have equal : name ++ ']' :: rest = other ++ ']' :: others := by simpa [Token.text] using same
    have cut := Text.cut?_eq_some_iff.mpr ⟨equal, otherClosed⟩
    rw [Text.cut?_eq_some_iff.mpr ⟨rfl, closed⟩] at cut
    exact (Prod.mk.inj (Option.some.inj cut)).2
  all_goals grind [Token.text]

/-- The beginning of a token does not begin with a token. -/
theorem Unfinished.ne_append
    {tail : List Char}
    (unfinished : Unfinished tail)
    (token : Token)
    (rest : List Char) :
    tail ≠ token.text ++ rest := by
  intro same
  cases unfinished <;> cases token <;> grind [Token.text]

/-- A template ends between two tokens unless it ends inside of one. -/
theorem endsBetween_iff
    {template : List Char} :
    EndsBetween template ↔ ¬ EndsInside template := by
  refine ⟨?_, (endsBetween_or_endsInside template).resolve_right⟩
  rintro ⟨tokens, rfl⟩ ⟨others, tail, unfinished, same⟩
  induction tokens generalizing others with
  | nil =>
      cases unfinished <;> simp at same
  | cons token tokens inductionHypothesis =>
      rw [List.flatMap_cons] at same
      cases others with
      | nil => exact unfinished.ne_append token _ same.symm
      | cons other others =>
          rw [List.flatMap_cons, List.append_assoc] at same
          exact inductionHypothesis others (Token.rest_eq same)

/-! ## Pieces of tokens -/

/-- The pieces that a token is cut into. -/
def Token.pieces : Token → List Piece
  | plain c _ => [.literal c]
  | backslash c => (afterBackslash c).map .literal
  | letter key _ => [.escape key]
  | named name _ => [.named name]

theorem pieces_token_append
    (token : Token)
    (rest : List Char) :
    pieces (token.text ++ rest) = token.pieces ++ pieces rest := by
  cases token with
  | plain c ordinary =>
      exact pieces.eq_7 c rest (fun same => absurd same ordinary.1)
        (fun same => absurd same ordinary.2) (fun _ _ same => absurd same ordinary.1)
        (fun _ same => absurd same ordinary.2) (fun _ _ same => absurd same ordinary.2)
  | backslash c => exact pieces.eq_4 c rest
  | letter key single => exact pieces.eq_6 key rest single
  | named name closed =>
      have written : (Token.named name closed).text ++ rest =
          '%' :: '[' :: (name ++ ']' :: rest) := by simp [Token.text]
      rw [written, pieces, Text.takeWhile_append_mark closed, Text.dropWhile_append_mark closed,
        List.drop_one, List.tail_cons]
      rfl

/-! ## Expansion -/

section Expansion

variable (context : Context)

/-- What is put in for a token. -/
def Token.value (token : Token) : String :=
  String.join (token.pieces.map (Piece.text context))

theorem expand_token_append
    (token : Token)
    (rest : List Char) :
    expand context (String.ofList (token.text ++ rest)) =
      token.value context ++ expand context (String.ofList rest) := by
  rw [expand, String.toList_ofList, pieces_token_append, List.map_append, String.join_append,
    expand, String.toList_ofList]
  rfl

theorem expand_nil :
    expand context (String.ofList []) = "" := by
  rw [expand, String.toList_ofList, pieces]
  rfl

/-- Each token is expanded by itself. -/
theorem expand_tokens_append
    (tokens : List Token)
    (rest : List Char) :
    expand context (String.ofList (tokens.flatMap Token.text ++ rest)) =
      String.join (tokens.map (Token.value context)) ++ expand context (String.ofList rest) := by
  induction tokens with
  | nil => exact (String.empty_append).symm
  | cons token tokens inductionHypothesis =>
      rw [List.flatMap_cons, List.append_assoc, expand_token_append, inductionHypothesis,
        List.map_cons, String.join_cons, String.append_assoc]

theorem expand_tokens
    (tokens : List Token) :
    expand context (String.ofList (tokens.flatMap Token.text)) =
      String.join (tokens.map (Token.value context)) := by
  have whole := expand_tokens_append context tokens []
  rwa [List.append_nil, expand_nil, String.append_empty] at whole

/-- A template that ends between two tokens is expanded apart from what follows. -/
theorem expand_append
    {a : String}
    (between : EndsBetween a.toList)
    (b : String) :
    expand context (a ++ b) = expand context a ++ expand context b := by
  obtain ⟨tokens, written⟩ := between
  obtain rfl : a = String.ofList (tokens.flatMap Token.text) := by
    rw [← written, String.ofList_toList]
  rw [← String.ofList_toList (s := b), ← String.ofList_append, expand_tokens_append, expand_tokens]

/-- What is put in for a token stands as it is between the texts around it. -/
theorem expand_around
    {a : String}
    (between : EndsBetween a.toList)
    (token : Token)
    (b : String) :
    expand context (a ++ String.ofList token.text ++ b) =
      expand context a ++ token.value context ++ expand context b := by
  have upTo : EndsBetween (a ++ String.ofList token.text).toList := by
    rw [String.toList_append, String.toList_ofList]
    exact between.append token.endsBetween
  have alone : expand context (String.ofList token.text) = token.value context := by
    simpa [String.join_cons] using expand_tokens context [token]
  rw [expand_append context upTo, expand_append context between, alone]

end Expansion

/-! ## Texts that stand for themselves -/

/-- A text with its percent signs and backslashes doubled. -/
def doubled (text : String) : String :=
  String.ofList (text.toList.flatMap fun c => if c = '%' ∨ c = '\\' then [c, c] else [c])

/-- The token that a character stands behind when it is to be left alone. -/
def verbatim (c : Char) : Token :=
  if percent : c = '%' then .letter '%' (by decide)
  else if backslash : c = '\\' then .backslash '\\'
  else .plain c ⟨backslash, percent⟩

theorem verbatim_text
    (c : Char) :
    (verbatim c).text = if c = '%' ∨ c = '\\' then [c, c] else [c] := by
  unfold verbatim
  split
  · next percent => simp [percent, Token.text]
  · next noPercent =>
    split
    · next backslash => simp [backslash, Token.text]
    · next noBackslash => simp [noPercent, noBackslash, Token.text]

theorem verbatim_value
    (context : Context)
    (c : Char) :
    (verbatim c).value context = String.singleton c := by
  unfold verbatim
  split
  · next percent => subst percent; rfl
  · split
    · next backslash => subst backslash; rfl
    · rfl

theorem join_singletons
    (characters : List Char) :
    String.join (characters.map String.singleton) = String.ofList characters := by
  induction characters with
  | nil => rfl
  | cons c rest inductionHypothesis =>
      rw [List.map_cons, String.join_cons, inductionHypothesis, String.ofList_cons]

theorem expand_doubled
    (context : Context)
    (text : String) :
    expand context (doubled text) = text := by
  have written : doubled text =
      String.ofList ((text.toList.map verbatim).flatMap Token.text) := by
    rw [doubled, List.flatMap_map]
    simp only [verbatim_text]
  have values : (text.toList.map verbatim).map (Token.value context) =
      text.toList.map String.singleton := by
    rw [List.map_map]
    exact List.map_congr_left fun c _ => verbatim_value context c
  rw [written, expand_tokens, values, join_singletons, String.ofList_toList]

/-- Doubling changes no first character. -/
theorem head?_doubled
    (text : String) :
    (doubled text).toList.head? = text.toList.head? := by
  rw [doubled, String.toList_ofList]
  cases text.toList with
  | nil => rfl
  | cons c rest =>
      rw [List.flatMap_cons]
      split <;> rfl

/-! ## Arguments -/

section Arguments

variable (readText : String → Except String String) (context : Context)

/-- An argument that does not start with `@` is a template itself. -/
theorem interpret_of_plain
    {argument : String}
    (plain : argument.toList.head? ≠ some '@') :
    interpret readText context argument = .ok (expand context argument) := by
  have itself : source readText argument = .ok argument := by
    unfold source
    split
    · next path given => simp [given] at plain
    · rfl
  rw [interpret, itself]
  rfl

theorem head?_append_plain
    {a b : String}
    (plainFirst : a.toList.head? ≠ some '@')
    (plainSecond : b.toList.head? ≠ some '@') :
    (a ++ b).toList.head? ≠ some '@' := by
  rw [String.toList_append, List.head?_append]
  cases first : a.toList.head? with
  | none => simpa using plainSecond
  | some c => simpa [first] using plainFirst

/-- Interpreting undoes doubling.  A template that ends between two tokens is interpreted apart from
what follows it, and what is put in for a name or a letter stands as it is between the two. -/
theorem doubling_and_composition :
    (∀ text : String, text.toList.head? ≠ some '@' →
        interpret readText context (doubled text) = .ok text) ∧
      ∀ a b : String, a.toList.head? ≠ some '@' → b.toList.head? ≠ some '@' →
        ¬ EndsInside a.toList →
        ∃ first second : String,
          interpret readText context a = .ok first ∧
            interpret readText context b = .ok second ∧
            interpret readText context (a ++ b) = .ok (first ++ second) ∧
            (∀ name : String, ']' ∉ name.toList →
              interpret readText context (a ++ ("%[" ++ name ++ "]") ++ b) =
                .ok (first ++ namedValue context name ++ second)) ∧
            ∀ key value, key ≠ '[' → escapeValue? context key = some value →
              interpret readText context (a ++ String.ofList ['%', key] ++ b) =
                .ok (first ++ value ++ second) := by
  refine ⟨fun text plain => ?_, fun a b plainFirst plainSecond notInside => ?_⟩
  · rw [interpret_of_plain readText context (head?_doubled text ▸ plain), expand_doubled]
  have between : EndsBetween a.toList := endsBetween_iff.mpr notInside
  have around (token : Token) (percent : token.text.head? = some '%') :
      interpret readText context (a ++ String.ofList token.text ++ b) =
        .ok (expand context a ++ token.value context ++ expand context b) := by
    have plainToken : (String.ofList token.text).toList.head? ≠ some '@' := by
      rw [String.toList_ofList, percent]
      decide
    rw [interpret_of_plain readText context
      (head?_append_plain (head?_append_plain plainFirst plainToken) plainSecond),
      expand_around context between]
  refine ⟨expand context a, expand context b, interpret_of_plain readText context plainFirst,
    interpret_of_plain readText context plainSecond, ?_, fun name closed => ?_,
    fun key value single found => ?_⟩
  · rw [interpret_of_plain readText context (head?_append_plain plainFirst plainSecond),
      expand_append context between]
  · have written : "%[" ++ name ++ "]" = String.ofList (Token.named name.toList closed).text := by
      apply String.toList_injective
      simp [Token.text]
    have put : (Token.named name.toList closed).value context = namedValue context name := by
      simp [Token.value, Token.pieces, Piece.text]
    rw [written, around _ rfl, put]
  · have put : (Token.letter key single).value context = value := by
      simp [Token.value, Token.pieces, Piece.text, found]
    rw [show ['%', key] = (Token.letter key single).text from rfl, around _ rfl, put]

end Arguments

/-- A comment full of escapes is put in as it is, between a template that ends behind two percent
signs and one that begins with a letter. -/
theorem comment_stays_as_it_is :
    let image : Image := { (default : Image) with
      properties := Table.empty.insert "comment" "%w\\n%[label" }
    let context : Context := { settings := {}, image? := some image, count := 3 }
    let missing (_ : String) : Except String String := .error "no file"
    "%%".toList.head? ≠ some '@' ∧ "%n".toList.head? ≠ some '@' ∧ ¬ EndsInside "%%".toList ∧
      ']' ∉ "comment".toList ∧
      interpret missing context "%%%[comment]%n" = .ok "%%w\\n%[label3" := by
  intro image context missing
  have between : EndsBetween "%%".toList := ⟨[.letter '%' (by decide)], by decide⟩
  have notInside : ¬ EndsInside "%%".toList := endsBetween_iff.mp between
  have plain : "%%".toList.head? ≠ some '@' ∧ "%n".toList.head? ≠ some '@' := by decide
  obtain ⟨first, second, readFirst, readSecond, -, named, -⟩ :=
    (doubling_and_composition missing context).2 "%%" "%n" plain.1 plain.2 notInside
  have valueFirst : expand context "%%" = "%" := by decide +kernel
  have valueSecond : expand context "%n" = "3" := by decide +kernel
  have put : namedValue context "comment" = "%w\\n%[label" := by decide
  rw [interpret_of_plain missing context plain.1, valueFirst] at readFirst
  rw [interpret_of_plain missing context plain.2, valueSecond] at readSecond
  obtain rfl := Except.ok.inj readFirst
  obtain rfl := Except.ok.inj readSecond
  have closed : ']' ∉ "comment".toList := by decide
  have whole := named "comment" closed
  rw [put] at whole
  exact ⟨plain.1, plain.2, notInside, closed, whole⟩

end Template
end Darkroom
