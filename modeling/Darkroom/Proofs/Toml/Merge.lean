import Darkroom.Proofs.Table
import Darkroom.Toml.Basic

/-!
# What merging leaves at each path

A table is a finite map, so its keys are different from one another, and so are those of the tables
inside of it.  Merging keeps this, and it is described path by path: tables that meet are merged, an
overlay stands wherever it has something else to say, and the base stands wherever the overlay says
nothing and no ancestor in the overlay closes the path.  Laying the same overlay over once more
changes nothing, and neither does a value laid over itself.
-/

namespace Darkroom
namespace Toml

/-! ## Values whose keys differ -/

/-- In every table inside the value the keys are different from one another. -/
inductive WellKeyed : Toml → Prop
  | string
      (text : String) :
      WellKeyed (.string text)
  | integer
      (value : Int) :
      WellKeyed (.integer value)
  | float
      (value : Float) :
      WellKeyed (.float value)
  | boolean
      (value : Bool) :
      WellKeyed (.boolean value)
  | datetime
      (text : String) :
      WellKeyed (.datetime text)
  | array
      {items : List Toml}
      (inside : ∀ item ∈ items, WellKeyed item) :
      WellKeyed (.array items)
  | table
      {entries : List (String × Toml)}
      (keysDiffer : (entries.map Prod.fst).Nodup)
      (inside : ∀ entry ∈ entries, WellKeyed entry.2) :
      WellKeyed (.table entries)

/-- Whether a value is a table. -/
def IsTable (value : Toml) : Prop :=
  ∃ entries, value = .table entries

/-- No ancestor of the path that the value has is anything but a table. -/
def LeavesOpen (value : Toml) (path : List String) : Prop :=
  ∀ above, above <+: path → above ≠ path → ∀ ancestor, value.get? above = some ancestor →
    ancestor.IsTable

theorem WellKeyed.entries
    {entries : List (String × Toml)}
    (wellKeyed : (Toml.table entries).WellKeyed) :
    (entries.map Prod.fst).Nodup ∧ ∀ entry ∈ entries, entry.2.WellKeyed := by
  cases wellKeyed with
  | table keysDiffer inside => exact ⟨keysDiffer, inside⟩

/-! ## Entries -/

section Entries

variable {α : Type} {key : String} {change : Option α → α} {entries : List (String × α)}

theorem lookup_upsert
    (key other : String)
    (change : Option α → α)
    (entries : List (String × α)) :
    (upsert key change entries).lookup other =
      if other = key then some (change (entries.lookup key)) else entries.lookup other := by
  induction entries with
  | nil => simp [upsert, Table.lookup_cons_eq]
  | cons entry rest inductionHypothesis =>
      obtain ⟨k, v⟩ := entry
      by_cases same : k = key
      · subst same
        by_cases found : other = k <;> simp [upsert, Table.lookup_cons_eq, found]
      · by_cases found : other = k
        · subst found
          simp [upsert, same]
        · simp [upsert, Table.lookup_cons_eq, same, Ne.symm same, found, inductionHypothesis]

/-- A change that leaves the value of a key as it is leaves all entries as they are. -/
theorem upsert_of_unchanged
    {value : α}
    (found : entries.lookup key = some value)
    (unchanged : change (some value) = value) :
    upsert key change entries = entries := by
  induction entries with
  | nil => simp at found
  | cons entry rest inductionHypothesis =>
      obtain ⟨k, v⟩ := entry
      rw [Table.lookup_cons_eq] at found
      by_cases same : k = key
      · rw [if_pos same.symm, Option.some.injEq] at found
        simp [upsert, same, found, unchanged]
      · rw [if_neg (Ne.symm same)] at found
        simp [upsert, same, inductionHypothesis found]

/-- The keys stay in their order, and a new one comes last. -/
theorem upsert_keys
    (key : String)
    (change : Option α → α)
    (entries : List (String × α)) :
    (upsert key change entries).map Prod.fst =
      if key ∈ entries.map Prod.fst then entries.map Prod.fst
      else entries.map Prod.fst ++ [key] := by
  induction entries with
  | nil => simp [upsert]
  | cons entry rest inductionHypothesis =>
      obtain ⟨k, v⟩ := entry
      by_cases same : k = key
      · simp [upsert, same]
      · by_cases known : key ∈ rest.map Prod.fst <;>
          simp [upsert, same, Ne.symm same, inductionHypothesis, known]

theorem upsert_keysDiffer
    (key : String)
    (change : Option α → α)
    (keysDiffer : (entries.map Prod.fst).Nodup) :
    ((upsert key change entries).map Prod.fst).Nodup := by
  rw [upsert_keys]
  split
  · exact keysDiffer
  · next unknown =>
    rw [(List.perm_append_singleton key _).nodup_iff]
    exact List.nodup_cons.mpr ⟨unknown, keysDiffer⟩

/-- What is true of all values stays true when it is true of the new one. -/
theorem forall_mem_upsert
    {holds : α → Prop}
    (all : ∀ entry ∈ entries, holds entry.2)
    (fresh : holds (change none))
    (changed : ∀ old, holds old → holds (change (some old))) :
    ∀ entry ∈ upsert key change entries, holds entry.2 := by
  induction entries with
  | nil => simpa [upsert] using fresh
  | cons entry rest inductionHypothesis =>
      obtain ⟨k, v⟩ := entry
      rw [List.forall_mem_cons] at all
      by_cases same : k = key
      · rw [upsert, if_pos same, List.forall_mem_cons]
        exact ⟨changed v all.1, all.2⟩
      · rw [upsert, if_neg same, List.forall_mem_cons]
        exact ⟨all.1, inductionHypothesis all.2⟩

end Entries

/-! ## Merged entries -/

/-- The value that an overlay puts in the place of what is there. -/
def laidOver (overlay : Toml) : Option Toml → Toml
  | some old => old.merge overlay
  | none => overlay

theorem mergeEntries_cons
    (base : List (String × Toml))
    (key : String)
    (value : Toml)
    (rest : List (String × Toml)) :
    mergeEntries base ((key, value) :: rest) =
      mergeEntries (upsert key value.laidOver base) rest := by
  rw [mergeEntries]
  congr 2

theorem merge_of_not_table
    {base overlay : Toml}
    (notBoth : ¬ (base.IsTable ∧ overlay.IsTable)) :
    base.merge overlay = overlay := by
  unfold merge
  split
  · exact absurd ⟨⟨_, rfl⟩, ⟨_, rfl⟩⟩ notBoth
  · rfl

/-- Each key of the overlay is laid over what the base has under it; other keys do not notice. -/
theorem lookup_mergeEntries
    {overlay : List (String × Toml)}
    (keysDiffer : (overlay.map Prod.fst).Nodup)
    (base : List (String × Toml))
    (key : String) :
    (mergeEntries base overlay).lookup key =
      match overlay.lookup key with
      | some value => some (value.laidOver (base.lookup key))
      | none => base.lookup key := by
  induction overlay generalizing base with
  | nil => simp [mergeEntries]
  | cons entry rest inductionHypothesis =>
      obtain ⟨k, v⟩ := entry
      rw [List.map_cons, List.nodup_cons] at keysDiffer
      rw [mergeEntries_cons, inductionHypothesis keysDiffer.2, Table.lookup_cons_eq, lookup_upsert]
      by_cases same : key = k
      · have absent : rest.lookup key = none := by
          rw [List.lookup_eq_none_iff]
          rintro ⟨other, value⟩ mem
          rw [bne_iff_ne]
          rintro rfl
          exact keysDiffer.1 (same ▸ List.mem_map.mpr ⟨_, mem, rfl⟩)
        subst same
        simp [absent]
      · simp [same]

/-- An overlay whose values change nothing in the base changes nothing at all. -/
theorem mergeEntries_of_absorbed
    {base overlay : List (String × Toml)}
    (absorbed : ∀ entry ∈ overlay, ∃ old, base.lookup entry.1 = some old ∧
      old.merge entry.2 = old) :
    mergeEntries base overlay = base := by
  induction overlay with
  | nil => rw [mergeEntries]
  | cons entry rest inductionHypothesis =>
      obtain ⟨key, value⟩ := entry
      rw [List.forall_mem_cons] at absorbed
      obtain ⟨⟨old, found, unchanged⟩, others⟩ := absorbed
      rw [mergeEntries_cons, upsert_of_unchanged found unchanged, inductionHypothesis others]

/-! ## Merging once more -/

/-- A value laid over itself is that value. -/
theorem WellKeyed.merge_self
    {value : Toml}
    (wellKeyed : value.WellKeyed) :
    value.merge value = value := by
  induction wellKeyed with
  | table keysDiffer inside inductionHypothesis =>
      rw [Toml.merge, mergeEntries_of_absorbed]
      intro entry mem
      exact ⟨entry.2, Table.lookup_eq_some_of_mem keysDiffer mem, inductionHypothesis entry mem⟩
  | _ => exact merge_of_not_table (by simp [IsTable])

/-- What holds of an overlay that meets no table with a table, and of tables when it holds of the
overlay's values over anything, holds of an overlay over every base. -/
theorem WellKeyed.overlay_induction
    {motive : Toml → Toml → Prop}
    (apart : ∀ base overlay : Toml, overlay.WellKeyed → ¬ (base.IsTable ∧ overlay.IsTable) →
      motive base overlay)
    (meeting : ∀ below entries : List (String × Toml), (entries.map Prod.fst).Nodup →
      (∀ entry ∈ entries, entry.2.WellKeyed) →
      (∀ entry ∈ entries, ∀ base, motive base entry.2) →
      motive (.table below) (.table entries))
    {overlay : Toml}
    (wellKeyed : overlay.WellKeyed)
    (base : Toml) :
    motive base overlay := by
  induction wellKeyed generalizing base with
  | table keysDiffer inside inductionHypothesis =>
      by_cases isTable : base.IsTable
      · obtain ⟨below, rfl⟩ := isTable
        exact meeting below _ keysDiffer inside inductionHypothesis
      · exact apart base _ (.table keysDiffer inside) fun both => isTable both.1
  | array inside => exact apart base _ (.array inside) (by simp [IsTable])
  | string text => exact apart base _ (.string text) (by simp [IsTable])
  | integer value => exact apart base _ (.integer value) (by simp [IsTable])
  | float value => exact apart base _ (.float value) (by simp [IsTable])
  | boolean value => exact apart base _ (.boolean value) (by simp [IsTable])
  | datetime text => exact apart base _ (.datetime text) (by simp [IsTable])

/-- An overlay that was laid over a base changes nothing when it is laid over again. -/
theorem WellKeyed.merge_merge
    {overlay : Toml}
    (wellKeyed : overlay.WellKeyed)
    (base : Toml) :
    (base.merge overlay).merge overlay = base.merge overlay := by
  refine WellKeyed.overlay_induction
    (motive := fun base overlay => (base.merge overlay).merge overlay = base.merge overlay)
    ?_ ?_ wellKeyed base
  · intro base overlay wellKeyed apart
    rw [merge_of_not_table apart, wellKeyed.merge_self]
  · intro below entries keysDiffer inside inductionHypothesis
    rw [Toml.merge, Toml.merge, mergeEntries_of_absorbed]
    intro entry mem
    have found := Table.lookup_eq_some_of_mem keysDiffer mem
    refine ⟨_, by rw [lookup_mergeEntries keysDiffer, found], ?_⟩
    cases below.lookup entry.1 with
    | none => exact (inside entry mem).merge_self
    | some old => exact inductionHypothesis entry mem old

/-- Merging makes no key double. -/
theorem WellKeyed.merge
    {overlay : Toml}
    (overlayWellKeyed : overlay.WellKeyed)
    {base : Toml}
    (baseWellKeyed : base.WellKeyed) :
    (base.merge overlay).WellKeyed := by
  revert baseWellKeyed
  refine WellKeyed.overlay_induction
    (motive := fun base overlay => base.WellKeyed → (base.merge overlay).WellKeyed)
    ?_ ?_ overlayWellKeyed base
  · intro base overlay wellKeyed apart _
    rwa [merge_of_not_table apart]
  · intro below entries keysDiffer inside inductionHypothesis baseWellKeyed
    obtain ⟨belowDiffer, belowInside⟩ := baseWellKeyed.entries
    rw [Toml.merge]
    clear keysDiffer
    -- one entry after the other is laid over, so the base changes along the way
    induction entries generalizing below with
    | nil => exact mergeEntries.eq_1 below ▸ .table belowDiffer belowInside
    | cons entry rest overRest =>
        rw [List.forall_mem_cons] at inside inductionHypothesis
        rw [mergeEntries_cons]
        have differ := upsert_keysDiffer entry.1 entry.2.laidOver belowDiffer
        have kept : ∀ other ∈ upsert entry.1 entry.2.laidOver below, other.2.WellKeyed :=
          forall_mem_upsert belowInside inside.1 inductionHypothesis.1
        exact overRest _ inside.2 inductionHypothesis.2 (.table differ kept) differ kept

/-! ## Paths -/

@[simp] theorem get?_nil
    (value : Toml) :
    value.get? [] = some value := by
  cases value <;> rfl

theorem get?_cons_of_not_table
    {value : Toml}
    (notTable : ¬ value.IsTable)
    (key : String)
    (path : List String) :
    value.get? (key :: path) = none := by
  cases value with
  | table entries => exact absurd ⟨entries, rfl⟩ notTable
  | _ => rfl

theorem get?_table_cons
    (entries : List (String × Toml))
    (key : String)
    (path : List String) :
    (table entries).get? (key :: path) = (entries.lookup key).bind (·.get? path) := rfl

theorem isTable_of_leavesOpen
    {value : Toml}
    {key : String}
    {path : List String}
    (leavesOpen : value.LeavesOpen (key :: path)) :
    value.IsTable :=
  leavesOpen [] List.nil_prefix (by simp) value (get?_nil value)

theorem leavesOpen_cons_iff
    {entries : List (String × Toml)}
    {key : String}
    {path : List String} :
    (table entries).LeavesOpen (key :: path) ↔
      ∀ value, entries.lookup key = some value → value.LeavesOpen path := by
  constructor
  · intro leavesOpen value found above isPrefix ne ancestor there
    refine leavesOpen (key :: above) (List.cons_prefix_cons.mpr ⟨rfl, isPrefix⟩)
      (by simpa using ne) ancestor ?_
    rw [get?_table_cons, found, Option.bind_some, there]
  · intro leavesOpen above isPrefix ne ancestor there
    rcases List.prefix_cons_iff.mp isPrefix with rfl | ⟨tail, rfl, tailPrefix⟩
    · rw [get?_nil, Option.some.injEq] at there
      exact ⟨entries, there.symm⟩
    · rw [get?_table_cons, Option.bind_eq_some_iff] at there
      obtain ⟨value, found, there⟩ := there
      exact leavesOpen value found tail tailPrefix (by simpa using ne) ancestor there

/-- What a merged value has at a path, given what the base and the overlay have there and whether
the overlay leaves the path open: tables that meet are merged, what else the overlay has stands, and
the base keeps what is left open to it. -/
inductive MergedAt (isOpen : Prop) : (base overlay merged : Option Toml) → Prop
  | both
      (below entries : List (String × Toml)) :
      MergedAt isOpen (some (.table below)) (some (.table entries))
        (some ((table below).merge (.table entries)))
  | overlay
      (base? : Option Toml)
      (value : Toml)
      (apart : ¬ ∃ base, base? = some base ∧ base.IsTable ∧ value.IsTable) :
      MergedAt isOpen base? (some value) (some value)
  | base
      (base? : Option Toml)
      (leftOpen : isOpen) :
      MergedAt isOpen base? none base?
  | closed
      (base? : Option Toml)
      (notOpen : ¬ isOpen) :
      MergedAt isOpen base? none none

/-- Over a base that has nothing at the path, what the overlay has there stands. -/
theorem mergedAt_none
    {isOpen : Prop}
    (overlay? : Option Toml) :
    MergedAt isOpen none overlay? overlay? := by
  cases overlay? with
  | some value => exact .overlay none value (by simp)
  | none =>
      by_cases leftOpen : isOpen
      · exact .base none leftOpen
      · exact .closed none leftOpen

theorem WellKeyed.mergedAt
    {overlay : Toml}
    (wellKeyed : overlay.WellKeyed)
    (base : Toml)
    (path : List String) :
    MergedAt (overlay.LeavesOpen path) (base.get? path) (overlay.get? path)
      ((base.merge overlay).get? path) := by
  induction path generalizing base overlay with
  | nil =>
      simp only [get?_nil]
      by_cases both : base.IsTable ∧ overlay.IsTable
      · obtain ⟨⟨below, rfl⟩, ⟨entries, rfl⟩⟩ := both
        exact .both below entries
      · rw [merge_of_not_table both]
        exact .overlay _ _ (by simpa using both)
  | cons key path inductionHypothesis =>
      by_cases overlayIsTable : overlay.IsTable
      case neg =>
        -- a plain value closes every path below it
        rw [merge_of_not_table (fun both => overlayIsTable both.2),
          get?_cons_of_not_table overlayIsTable]
        exact .closed _ fun leavesOpen => overlayIsTable (isTable_of_leavesOpen leavesOpen)
      by_cases baseIsTable : base.IsTable
      case neg =>
        rw [merge_of_not_table (fun both => baseIsTable both.1),
          get?_cons_of_not_table baseIsTable]
        exact mergedAt_none _
      obtain ⟨entries, rfl⟩ := overlayIsTable
      obtain ⟨below, rfl⟩ := baseIsTable
      rw [Toml.merge, get?_table_cons, get?_table_cons, get?_table_cons,
        lookup_mergeEntries wellKeyed.entries.1, propext leavesOpen_cons_iff]
      cases found : entries.lookup key with
      | none => exact .base _ (by simp)
      | some value =>
          have valueWellKeyed : value.WellKeyed := by
            obtain ⟨_, _, split, -⟩ := List.lookup_eq_some_iff.mp found
            exact wellKeyed.entries.2 (key, value) (by simp [split])
          cases there : below.lookup key with
          | none => exact mergedAt_none _
          | some old => simpa [laidOver] using inductionHypothesis valueWellKeyed old

/-- Merging is described path by path: tables that meet are merged, the overlay stands wherever else
it has something, and what it does not have is kept from the base as long as no ancestor in the
overlay closes the path.  So an empty table over a table, a value over itself and an overlay laid
over once more change nothing. -/
theorem merge_path_by_path :
    (∀ base overlay : Toml, base.WellKeyed → overlay.WellKeyed →
      (base.merge overlay).WellKeyed ∧
        ∀ path : List String,
          (∀ below entries, base.get? path = some (.table below) →
            overlay.get? path = some (.table entries) →
            (base.merge overlay).get? path = some ((table below).merge (.table entries))) ∧
          (∀ value, overlay.get? path = some value →
            (¬ value.IsTable ∨ ∀ old, base.get? path = some old → ¬ old.IsTable) →
            (base.merge overlay).get? path = some value) ∧
          (overlay.get? path = none → overlay.LeavesOpen path →
            (base.merge overlay).get? path = base.get? path) ∧
          (overlay.get? path = none → ¬ overlay.LeavesOpen path →
            (base.merge overlay).get? path = none)) ∧
      (∀ entries, (table entries).merge (.table []) = .table entries) ∧
      (∀ value : Toml, value.WellKeyed → value.merge value = value) ∧
      ∀ base overlay : Toml, overlay.WellKeyed →
        (base.merge overlay).merge overlay = base.merge overlay := by
  refine ⟨fun base overlay baseWellKeyed wellKeyed =>
      ⟨wellKeyed.merge baseWellKeyed, fun path => ?_⟩,
    fun entries => by rw [Toml.merge, mergeEntries], fun _ => WellKeyed.merge_self,
    fun base _ wellKeyed => wellKeyed.merge_merge base⟩
  have at_path := wellKeyed.mergedAt base path
  generalize base.get? path = base?, overlay.get? path = overlay?,
    (base.merge overlay).get? path = merged? at at_path
  cases at_path with
  | both below entries => simp [IsTable]
  | overlay _ value apart =>
      refine ⟨?_, by simp, by simp, by simp⟩
      rintro below entries rfl same
      exact absurd ⟨_, rfl, ⟨_, rfl⟩, ⟨entries, Option.some.inj same⟩⟩ apart
  | base _ leftOpen => simp [leftOpen]
  | closed _ notOpen => simp [notOpen]

/-- A table over a number opens what is below it, a text over a table closes it, and the number
beside that table is kept. -/
theorem table_and_text_change_places :
    let base : Toml := .table
      [("a", .integer 1), ("t", .table [("u", .table [("v", .boolean true)]), ("x", .integer 2)])]
    let overlay : Toml := .table
      [("t", .table [("u", .string "w")]), ("a", .table [("b", .integer 5)])]
    base.WellKeyed ∧ overlay.WellKeyed ∧
      (base.merge overlay).get? ["a", "b"] = some (.integer 5) ∧
      (base.merge overlay).get? ["t", "u", "v"] = none ∧
      (base.merge overlay).get? ["t", "x"] = some (.integer 2) ∧
      (base.merge overlay).merge overlay = base.merge overlay := by
  intro base overlay
  have baseWellKeyed : base.WellKeyed := by
    refine .table (by decide) ?_
    simp only [List.forall_mem_cons, List.not_mem_nil, false_implies, implies_true, and_true]
    refine ⟨.integer 1, .table (by decide) ?_⟩
    simp only [List.forall_mem_cons, List.not_mem_nil, false_implies, implies_true, and_true]
    exact ⟨.table (by decide) (by simpa using .boolean true), .integer 2⟩
  have overlayWellKeyed : overlay.WellKeyed := by
    refine .table (by decide) ?_
    simp only [List.forall_mem_cons, List.not_mem_nil, false_implies, implies_true, and_true]
    exact ⟨.table (by decide) (by simpa using .string "w"),
      .table (by decide) (by simpa using .integer 5)⟩
  have paths := (merge_path_by_path.1 base overlay baseWellKeyed overlayWellKeyed).2
  refine ⟨baseWellKeyed, overlayWellKeyed, ?_, ?_, ?_,
    merge_path_by_path.2.2.2 base overlay overlayWellKeyed⟩
  · exact (paths ["a", "b"]).2.1 (.integer 5) rfl (.inl (by simp [IsTable]))
  · refine (paths ["t", "u", "v"]).2.2.2 rfl fun leavesOpen => ?_
    obtain ⟨entries, isText⟩ := leavesOpen ["t", "u"] (by simp) (by simp) (.string "w") rfl
    cases isText
  · refine (paths ["t", "x"]).2.2.1 rfl ?_
    rw [leavesOpen_cons_iff]
    intro value found
    obtain rfl : .table [("u", .string "w")] = value := Option.some.inj found
    rw [leavesOpen_cons_iff]
    intro value found
    cases found

end Toml
end Darkroom
