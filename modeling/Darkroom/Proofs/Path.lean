import Darkroom.Proofs.Text
import Darkroom.Text.Path

/-!
# Cuts of a path

A path is put together from its lead and its parts.  The last part that means something is the file
name; what stands in front of it is the folder, which does not change with the name.  A file name is
cut at its last dot.
-/

namespace Darkroom
namespace Path

variable {lead name path stem extension : List Char}

/-! ## File names -/

/-- A text that a file name can follow: none, or one that ends with a slash. -/
def IsFolder (lead : List Char) : Prop :=
  lead = [] ∨ lead.getLast? = some '/'

/-- The name of a file is one part of a path, and neither an idle one nor the way up. -/
structure IsFileName (name : List Char) : Prop where
  /-- It is a single part. -/
  slashless : '/' ∉ name
  /-- It means something. -/
  meaningful : isIdle name = false
  /-- It does not lead up. -/
  down : name ≠ ['.', '.']

/-- What follows a folder is the last part. -/
theorem IsFolder.exists_splitOn
    (folder : IsFolder lead) :
    ∃ above, ∀ name, '/' ∉ name → (lead ++ name).splitOn '/' = above ++ [name] := by
  rcases folder with rfl | last
  · exact ⟨[], fun name slashless => List.splitOn_eq_singleton slashless⟩
  · obtain ⟨front, rfl⟩ := List.getLast?_eq_some_iff.mp last
    refine ⟨front.splitOn '/', fun name slashless => ?_⟩
    rw [List.append_assoc, List.singleton_append, List.splitOn_append_cons_self,
      List.splitOn_eq_singleton slashless]

theorem IsFolder.of_cons
    {c : Char}
    (folder : IsFolder (c :: lead)) :
    IsFolder lead := by
  rcases folder with none | last
  · cases none
  · cases lead with
    | nil => exact .inl rfl
    | cons d rest => exact .inr (List.getLast?_cons_cons ▸ last)

/-- A file name is the last part of a path. -/
theorem IsFolder.exists_parts
    (folder : IsFolder lead)
    (isName : IsFileName name) :
    ∃ above, (parts (lead ++ name)).parts = above ++ [name] := by
  obtain ⟨above, split⟩ := folder.exists_splitOn
  unfold parts
  split
  · next rest rooted =>
    cases lead with
    | nil =>
        obtain rfl : name = '/' :: rest := rooted
        exact absurd List.mem_cons_self isName.slashless
    | cons c lead =>
        obtain ⟨rfl, rfl⟩ := List.cons.inj rooted
        obtain ⟨above, split⟩ := folder.of_cons.exists_splitOn
        exact ⟨above, split name isName.slashless⟩
  · next dot =>
    have last := isName.meaningful
    rcases List.append_eq_singleton_iff.mp dot with ⟨-, rfl⟩ | ⟨-, rfl⟩ <;> cases last
  · next rest relative =>
    match lead with
    | [] =>
        obtain rfl : name = '.' :: '/' :: rest := relative
        exact absurd (List.mem_cons_of_mem _ List.mem_cons_self) isName.slashless
    | [c] =>
        obtain rfl : name = '/' :: rest := (List.cons.inj relative).2
        exact absurd List.mem_cons_self isName.slashless
    | c :: d :: lead =>
        obtain ⟨rfl, later⟩ := List.cons.inj relative
        obtain ⟨rfl, rfl⟩ := List.cons.inj later
        obtain ⟨above, split⟩ := folder.of_cons.of_cons.exists_splitOn
        exact ⟨[] :: above, congrArg (List.cons []) (split name isName.slashless)⟩
  · exact ⟨above, split name isName.slashless⟩

/-- The file name behind a folder. -/
theorem fileName?_append
    (folder : IsFolder lead)
    (isName : IsFileName name) :
    fileName? (lead ++ name) = some name := by
  obtain ⟨above, split⟩ := folder.exists_parts isName
  have first : meaningful (above ++ [name]) = name :: above.reverse := by
    rw [meaningful, List.reverse_append, List.reverse_singleton, List.singleton_append,
      List.dropWhile_cons_of_neg (by simp [isName.meaningful])]
  rw [fileName?, split, first]
  exact if_neg isName.down

theorem slash_notMem_of_mem_parts
    (mem : name ∈ (parts path).parts) :
    '/' ∉ name := by
  have piece {text : List Char} (mem : name ∈ text.splitOn '/') : '/' ∉ name :=
    Text.notMem_of_mem_splitOn mem
  unfold parts at mem
  split at mem
  · exact piece mem
  · cases mem
  · rcases List.mem_cons.mp mem with rfl | mem
    · exact List.not_mem_nil
    · exact piece mem
  · exact piece mem

/-- What is found as a file name is one. -/
theorem isFileName_of_fileName?
    (found : fileName? path = some name) :
    IsFileName name := by
  unfold fileName? at found
  split at found
  · cases found
  · next last rest shape =>
    split at found
    · cases found
    · next down =>
      obtain rfl := Option.some.inj found
      have mem : last ∈ (parts path).parts :=
        List.mem_reverse.mp ((List.dropWhile_sublist _).mem (shape ▸ List.mem_cons_self))
      have notIdle := List.head?_dropWhile_not isIdle (parts path).parts.reverse
      rw [show List.dropWhile isIdle _ = last :: rest from shape] at notIdle
      exact ⟨slash_notMem_of_mem_parts mem, notIdle, down⟩

/-! ## Other names in the same folder -/

theorem child_eq_append
    (path name : List Char) :
    child path name = child path [] ++ name := by
  unfold child
  split
  · rfl
  · split <;> simp

/-- The folder of a file is not changed with its name. -/
theorem withFileName_eq_append
    (path name : List Char) :
    withFileName path name = withFileName path [] ++ name := by
  unfold withFileName
  split <;> exact child_eq_append _ name

theorem isFolder_child
    (path : List Char) :
    IsFolder (child path []) := by
  unfold child
  split
  · exact .inl rfl
  · next c last =>
    split
    · next slash => exact .inr (by rw [List.append_nil, last, slash])
    · exact .inr (by simp)

theorem isFolder_withFileName
    (path : List Char) :
    IsFolder (withFileName path []) := by
  unfold withFileName
  split <;> exact isFolder_child _

/-! ## Stems and extensions -/

/-- A name without an extension is its stem. -/
theorem cutName_fst_of_none
    (none : (cutName name).2 = none) :
    (cutName name).1 = name := by
  unfold cutName at none ⊢
  split
  · rfl
  · next other =>
    rw [if_neg other] at none
    split
    · rfl
    · rfl
    · next cut => simp [cut] at none

/-- An extension follows the last dot of a name. -/
theorem eq_append_of_cutName
    (found : (cutName name).2 = some extension) :
    name = (cutName name).1 ++ '.' :: extension ∧ '.' ∉ extension := by
  unfold cutName at found ⊢
  split
  · next up => simp [up] at found
  · next other =>
    rw [if_neg other] at found
    split
    · next cut => simp [cut] at found
    · next cut => simp [cut] at found
    · next reversed before notFirst cut =>
      obtain ⟨shape, dotless⟩ := Text.cut?_eq_some_iff.mp cut
      obtain rfl : reversed.reverse = extension := by simpa [cut] using found
      refine ⟨List.reverse_inj.mp ?_, fun mem => dotless (List.mem_reverse.mp mem)⟩
      simpa using shape

/-- A text with a dot and more behind a stem is cut there. -/
theorem cutName_append
    (stemmed : stem ≠ [])
    (dotless : '.' ∉ extension)
    (named : stem ++ '.' :: extension ≠ ['.', '.']) :
    cutName (stem ++ '.' :: extension) = (stem, some extension) := by
  have cut : Text.cut? '.' (stem ++ '.' :: extension).reverse =
      some (extension.reverse, stem.reverse) := by
    refine Text.cut?_eq_some_iff.mpr ⟨?_, fun mem => dotless (List.mem_reverse.mp mem)⟩
    simp
  rw [cutName, if_neg named, cut]
  split
  · next impossible => cases impossible
  · next none =>
    simp only [Option.some.injEq, Prod.mk.injEq, List.reverse_eq_nil_iff] at none
    exact absurd none.2 stemmed
  · next found =>
    simp only [Option.some.injEq, Prod.mk.injEq] at found
    rw [← found.1, ← found.2, List.reverse_reverse, List.reverse_reverse]

/-- The characters of a stem and an extension are those of the name. -/
theorem cutName_subset
    (name : List Char) :
    (cutName name).1 ⊆ name ∧
      ∀ extension, (cutName name).2 = some extension → extension ⊆ name := by
  cases cut : (cutName name).2 with
  | none =>
      rw [cutName_fst_of_none cut]
      exact ⟨List.Subset.refl name, fun _ impossible => by cases impossible⟩
  | some extension =>
      obtain ⟨shape, -⟩ := eq_append_of_cutName cut
      constructor
      · intro c mem
        rw [shape]
        exact List.mem_append_left _ mem
      · rintro _ ⟨⟩ c mem
        rw [shape]
        exact List.mem_append_right _ (List.mem_cons_of_mem _ mem)

/-! ## What a folder is cut out of -/

theorem intercalate_prefix
    {parts more : List (List Char)}
    (leads : parts <+: more) :
    ['/'].intercalate parts <+: ['/'].intercalate more := by
  obtain ⟨rest, rfl⟩ := leads
  induction parts with
  | nil => exact List.nil_prefix
  | cons part parts inductionHypothesis =>
      cases parts with
      | nil =>
          cases rest with
          | nil => exact List.prefix_rfl
          | cons next rest =>
              rw [List.singleton_append, List.intercalate_cons_cons, List.intercalate_singleton,
                List.append_assoc]
              exact List.prefix_append _ _
      | cons next parts =>
          rw [List.cons_append, List.cons_append, List.intercalate_cons_cons,
            List.intercalate_cons_cons]
          exact (List.prefix_append_right_inj _).mpr inductionHypothesis

/-- Only an idle part disappears in a text. -/
theorem eq_nil_of_join
    {reversed : List (List Char)}
    (empty : join lead reversed = [])
    (meaning : ∀ part, reversed.head? = some part → isIdle part = false) :
    reversed = [] := by
  obtain ⟨-, nothing⟩ := List.append_eq_nil_iff.mp empty
  cases reversed with
  | nil => rfl
  | cons last rest =>
      have filled : last ≠ [] := by
        rintro rfl
        cases meaning [] rfl
      rw [List.reverse_cons] at nothing
      cases before : rest.reverse with
      | nil =>
          rw [before, List.nil_append, List.intercalate_singleton] at nothing
          exact absurd nothing filled
      | cons first more =>
          obtain ⟨second, others, more⟩ :=
            List.exists_cons_of_ne_nil (List.append_ne_nil_of_right_ne_nil more
              (List.cons_ne_nil last []))
          rw [before, List.cons_append, more, List.intercalate_cons_cons] at nothing
          simp at nothing

/-- A path is put together from its parts. -/
theorem lead_append_intercalate
    (path : List Char) :
    (parts path).lead ++ ['/'].intercalate (parts path).parts = path := by
  unfold parts
  split
  · next rest => exact congrArg (List.cons '/') (List.intercalate_splitOn '/')
  · rfl
  · next rest =>
    obtain ⟨first, more, shape⟩ := List.exists_cons_of_ne_nil (List.splitOn_ne_nil '/' rest)
    rw [shape, List.intercalate_cons_cons, ← shape, List.intercalate_splitOn]
    rfl
  · exact List.intercalate_splitOn '/'

/-- No part of a path that starts nowhere else is idle at its beginning. -/
theorem isIdle_head_parts
    (unled : (parts path).lead = [])
    (filled : path ≠ [])
    {first : List Char}
    {more : List (List Char)}
    (shape : (parts path).parts = first :: more) :
    isIdle first = false := by
  have whole := lead_append_intercalate path
  rw [unled, shape, List.nil_append] at whole
  by_contra idle
  -- An idle beginning would be a lead.
  have led : path = ['.'] ∨ (∃ rest, path = '/' :: rest) ∨
      ∃ rest, path = '.' :: '/' :: rest := by
    rw [← whole] at filled ⊢
    have bare : first = [] ∨ first = ['.'] := by simpa [isIdle, or_iff_not_imp_left] using idle
    rcases bare with rfl | rfl <;> cases more
    · exact absurd rfl filled
    · exact .inr (.inl ⟨_, rfl⟩)
    · exact .inl rfl
    · exact .inr (.inr ⟨_, rfl⟩)
  rcases led with rfl | ⟨rest, rfl⟩ | ⟨rest, rfl⟩ <;> cases unled

/-- A path with a file name is cut in what leads to the name, the name, and idle parts. -/
theorem parts_of_fileName?
    (found : fileName? path = some name) :
    ∃ above below,
      (parts path).parts = above ++ name :: below ∧
        parent? path = some (join (parts path).lead (above.reverse.dropWhile isIdle)) := by
  unfold fileName? at found
  split at found
  · cases found
  · next last rest shape =>
    split at found
    · cases found
    · obtain rfl := Option.some.inj found
      obtain ⟨idle, whole⟩ := List.dropWhile_suffix (l := (parts path).parts.reverse) isIdle
      rw [show List.dropWhile isIdle _ = last :: rest from shape] at whole
      refine ⟨rest.reverse, idle.reverse, List.reverse_inj.mp ?_, ?_⟩
      · rw [← whole]
        simp
      · rw [parent?, shape, List.reverse_reverse]

/-- The folder of a file name is nothing, and the path starts with the name, or it is cut out of the
path. -/
theorem withFileName_cases
    (found : fileName? path = some name) :
    (withFileName path [] = [] ∧ name <+: path) ∨
      ∃ front, withFileName path [] = front ++ ['/'] ∧ front <+: path := by
  obtain ⟨above, below, shape, parent⟩ := parts_of_fileName? found
  have whole := lead_append_intercalate path
  have kept : (above.reverse.dropWhile isIdle).reverse <+: above ++ name :: below := by
    refine .trans ?_ (List.prefix_append above _)
    rw [← List.reverse_suffix, List.reverse_reverse]
    exact List.dropWhile_suffix isIdle
  have leads : join (parts path).lead (above.reverse.dropWhile isIdle) <+: path := by
    have cut : join (parts path).lead (above.reverse.dropWhile isIdle) <+:
        (parts path).lead ++ ['/'].intercalate (parts path).parts :=
      (List.prefix_append_right_inj _).mpr (shape ▸ intercalate_prefix kept)
    rwa [whole] at cut
  have folder : withFileName path [] =
      child (join (parts path).lead (above.reverse.dropWhile isIdle)) [] := by
    rw [withFileName, found, parent]
    rfl
  rw [folder]
  generalize remains : above.reverse.dropWhile isIdle = remaining at leads
  cases last : (join (parts path).lead remaining).getLast? with
  | none =>
      have empty := List.getLast?_eq_none_iff.mp last
      obtain ⟨unled, nothing⟩ := List.append_eq_nil_iff.mp empty
      refine .inl ⟨by rw [empty]; rfl, ?_⟩
      have idle : ∀ part ∈ above, isIdle part := by
        have gone : above.reverse.dropWhile isIdle = [] := by
          refine remains.trans (eq_nil_of_join empty fun part first => ?_)
          have meaning := List.head?_dropWhile_not isIdle above.reverse
          rwa [remains, first] at meaning
        exact fun part mem => List.dropWhile_eq_nil_iff.mp gone part (List.mem_reverse.mpr mem)
      cases above with
      | nil =>
          have begins : [name] <+: (parts path).parts := shape ▸ ⟨below, rfl⟩
          rw [unled, List.nil_append] at whole
          have cut := intercalate_prefix begins
          rwa [whole, List.intercalate_singleton] at cut
      | cons first more =>
          have filled : path ≠ [] := by
            rintro rfl
            cases found
          have meaning := isIdle_head_parts unled filled shape
          rw [idle first List.mem_cons_self] at meaning
          cases meaning
  | some c =>
      refine .inr ?_
      unfold child
      rw [last]
      dsimp only
      by_cases slash : c = '/'
      · obtain ⟨front, ends⟩ := List.getLast?_eq_some_iff.mp last
        refine ⟨front, ?_, (List.prefix_append front [c]).trans (ends ▸ leads)⟩
        rw [if_pos slash, List.append_nil, ends, slash]
      · exact ⟨_, if_neg slash, leads⟩

end Path
end Darkroom
