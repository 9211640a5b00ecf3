import Darkroom.Proofs.Toml.Merge
import Darkroom.Toml.Document

/-!
# The keys of documents

No table of a document has a key twice.  The tables of a document under construction are changed by
setting a key at a time, inline tables are built the same way, and a reader of values is well keyed
when the readers of the values inside are.
-/

namespace Darkroom
namespace Toml

/-- What every step keeps is kept by a fold that succeeds. -/
theorem foldlM_kept
    {α β : Type}
    {step : β → α → Option β}
    {motive : β → Prop}
    {items : List α}
    (kept : ∀ item ∈ items, ∀ state after, motive state → step state item = some after →
      motive after)
    {start last : β}
    (atStart : motive start)
    (folded : items.foldlM step start = some last) :
    motive last := by
  induction items generalizing start with
  | nil => exact Option.some.inj folded ▸ atStart
  | cons item rest inductionHypothesis =>
      rw [List.forall_mem_cons] at kept
      rw [List.foldlM_cons] at folded
      obtain ⟨next, stepped, folded⟩ := Option.bind_eq_some_iff.mp folded
      exact inductionHypothesis kept.2 (kept.1 start next atStart stepped) folded

/-! ## Tables under construction -/

namespace Node

theorem tableOf_eq_map
    (entries : List (String × Node)) :
    tableOf entries = entries.map fun entry => (entry.1, entry.2.toToml) := by
  induction entries with
  | nil => rfl
  | cons entry rest inductionHypothesis => simp [tableOf, inductionHypothesis]

theorem tablesOf_eq_map
    (tables : List (List (String × Node))) :
    tablesOf tables = tables.map fun entries => .table (tableOf entries) := by
  induction tables with
  | nil => rfl
  | cons entries rest inductionHypothesis => simp [tablesOf, inductionHypothesis]

end Node

namespace Nodes

variable {nodes : Nodes} {key : String} {node : Node}

/-- The finished table is well keyed. -/
def WellKeyed (nodes : Nodes) : Prop :=
  (Toml.table (Node.tableOf nodes)).WellKeyed

theorem wellKeyed_nil :
    WellKeyed [] :=
  .table (by simp [Node.tableOf]) (by simp [Node.tableOf])

theorem tableOf_set
    (key : String)
    (node : Node)
    (nodes : Nodes) :
    Node.tableOf (set key node nodes) = upsert key (fun _ => node.toToml) (Node.tableOf nodes) := by
  unfold set
  induction nodes with
  | nil => rfl
  | cons entry rest inductionHypothesis =>
      obtain ⟨k, other⟩ := entry
      by_cases same : k = key <;> simp [upsert, Node.tableOf, same, inductionHypothesis]

theorem WellKeyed.set
    (wellKeyed : WellKeyed nodes)
    (key : String)
    (nodeWellKeyed : node.toToml.WellKeyed) :
    WellKeyed (Nodes.set key node nodes) := by
  unfold WellKeyed at wellKeyed ⊢
  obtain ⟨keysDiffer, inside⟩ := wellKeyed.entries
  rw [tableOf_set]
  exact .table (upsert_keysDiffer _ _ keysDiffer)
    (forall_mem_upsert inside nodeWellKeyed fun _ _ => nodeWellKeyed)

theorem WellKeyed.found
    (wellKeyed : WellKeyed nodes)
    (found : nodes.lookup key = some node) :
    node.toToml.WellKeyed := by
  obtain ⟨before, behind, split, -⟩ := List.lookup_eq_some_iff.mp found
  refine wellKeyed.entries.2 (key, node.toToml) ?_
  simp [Node.tableOf_eq_map, split]

/-- The table under a key, whatever opened it. -/
theorem WellKeyed.child
    (wellKeyed : WellKeyed nodes)
    {origin : Origin}
    {child : Nodes}
    (found : nodes.lookup key = some (.table origin child)) :
    WellKeyed child :=
  wellKeyed.found found

theorem wellKeyed_tables_iff
    {earlier : List Nodes}
    {last : Nodes} :
    (Node.tables earlier last).toToml.WellKeyed ↔
      (∀ table ∈ earlier, WellKeyed table) ∧ WellKeyed last := by
  rw [Node.toToml, Node.tablesOf_eq_map]
  constructor
  · intro wellKeyed
    cases wellKeyed with
    | array inside =>
        rw [List.forall_mem_append, List.forall_mem_map, List.forall_mem_singleton] at inside
        exact inside
  · rintro ⟨earlierWellKeyed, lastWellKeyed⟩
    refine .array ?_
    rw [List.forall_mem_append, List.forall_mem_map, List.forall_mem_singleton]
    exact ⟨earlierWellKeyed, lastWellKeyed⟩

theorem WellKeyed.assignAt
    {value : Toml}
    (valueWellKeyed : value.WellKeyed)
    {path : List String}
    {isOpen : Bool}
    {after : Nodes}
    (wellKeyed : WellKeyed nodes)
    (assigned : Nodes.assignAt key value path isOpen nodes = some after) :
    WellKeyed after := by
  induction path generalizing isOpen nodes after with
  | nil =>
      rw [Nodes.assignAt, Option.ite_none_right_eq_some] at assigned
      obtain ⟨-, ⟨⟩⟩ := assigned
      exact wellKeyed.set key valueWellKeyed
  | cons name path inductionHypothesis =>
      rw [Nodes.assignAt] at assigned
      split at assigned
      · obtain ⟨child, below, ⟨⟩⟩ := Option.bind_eq_some_iff.mp assigned
        exact wellKeyed.set name (inductionHypothesis wellKeyed_nil below)
      · cases assigned
      · cases assigned
      · next found =>
        obtain ⟨child, below, ⟨⟩⟩ := Option.bind_eq_some_iff.mp assigned
        exact wellKeyed.set name (inductionHypothesis (wellKeyed.child found) below)
      · next found =>
        obtain ⟨last, below, ⟨⟩⟩ := Option.bind_eq_some_iff.mp assigned
        have tables := wellKeyed_tables_iff.mp (wellKeyed.found found)
        exact wellKeyed.set name
          (wellKeyed_tables_iff.mpr ⟨tables.1, inductionHypothesis tables.2 below⟩)

/-- What a change keeps well keyed is kept below any path. -/
theorem WellKeyed.below
    {change : Nodes → Option Nodes}
    (kept : ∀ nodes after, WellKeyed nodes → change nodes = some after → WellKeyed after)
    {path : List String}
    {after : Nodes}
    (wellKeyed : WellKeyed nodes)
    (changed : Nodes.below change path nodes = some after) :
    WellKeyed after := by
  induction path generalizing nodes after with
  | nil => exact kept nodes after wellKeyed changed
  | cons name path inductionHypothesis =>
      rw [Nodes.below] at changed
      split at changed
      · obtain ⟨child, below, ⟨⟩⟩ := Option.bind_eq_some_iff.mp changed
        exact wellKeyed.set name (inductionHypothesis wellKeyed_nil below)
      · cases changed
      · next found =>
        obtain ⟨child, below, ⟨⟩⟩ := Option.bind_eq_some_iff.mp changed
        exact wellKeyed.set name (inductionHypothesis (wellKeyed.child found) below)
      · next found =>
        obtain ⟨last, below, ⟨⟩⟩ := Option.bind_eq_some_iff.mp changed
        have tables := wellKeyed_tables_iff.mp (wellKeyed.found found)
        exact wellKeyed.set name
          (wellKeyed_tables_iff.mpr ⟨tables.1, inductionHypothesis tables.2 below⟩)

theorem WellKeyed.openTable
    {path : List String}
    {after : Nodes}
    (wellKeyed : WellKeyed nodes)
    (opened : Nodes.openTable path key nodes = some after) :
    WellKeyed after := by
  refine wellKeyed.below (fun nodes after wellKeyed opened => ?_) opened
  split at opened
  · obtain rfl := Option.some.inj opened
    exact wellKeyed.set key wellKeyed_nil
  · next found =>
    obtain rfl := Option.some.inj opened
    exact wellKeyed.set key (wellKeyed.child found)
  · cases opened

theorem WellKeyed.openElement
    {path : List String}
    {after : Nodes}
    (wellKeyed : WellKeyed nodes)
    (opened : Nodes.openElement path key nodes = some after) :
    WellKeyed after := by
  refine wellKeyed.below (fun nodes after wellKeyed opened => ?_) opened
  split at opened
  · obtain rfl := Option.some.inj opened
    exact wellKeyed.set key (wellKeyed_tables_iff.mpr ⟨by simp, wellKeyed_nil⟩)
  · next found =>
    obtain rfl := Option.some.inj opened
    have tables := wellKeyed_tables_iff.mp (wellKeyed.found found)
    refine wellKeyed.set key (wellKeyed_tables_iff.mpr ⟨?_, wellKeyed_nil⟩)
    rw [List.forall_mem_append, List.forall_mem_singleton]
    exact tables
  · cases opened

end Nodes

/-! ## Values -/

/-- Every value that a reader takes off the front of a text is well keyed. -/
def ReadsWellKeyed (value? : List Char → Option (Toml × List Char)) : Prop :=
  ∀ s value rest, value? s = some (value, rest) → value.WellKeyed

theorem ofWord?_wellKeyed
    {s : List Char}
    {value : Toml}
    (read : ofWord? s = some value) :
    value.WellKeyed := by
  unfold ofWord? at read
  split at read
  · exact Option.some.inj read ▸ .boolean true
  · split at read
    · exact Option.some.inj read ▸ .boolean false
    · split at read
      · exact Option.some.inj read ▸ .datetime _
      · split at read
        · exact Option.some.inj read ▸ .float _
        · exact Option.some.inj read ▸ .float _
        · obtain ⟨n, -, rfl⟩ := Option.map_eq_some_iff.mp read
          exact .integer n

theorem scalar?_wellKeyed :
    ReadsWellKeyed scalar? := by
  intro s value rest read
  simp only [scalar?] at read
  split at read
  all_goals
    obtain ⟨_, word, ⟨⟩⟩ := Option.map_eq_some_iff.mp read
    exact ofWord?_wellKeyed word

section Inside

variable {value? : List Char → Option (Toml × List Char)}

theorem items?_wellKeyed
    (inside : ReadsWellKeyed value?)
    {fuel : Nat}
    {s rest : List Char}
    {items : List Toml}
    (read : items? value? fuel s = some (items, rest)) :
    ∀ item ∈ items, item.WellKeyed := by
  induction fuel generalizing s items rest with
  | zero => cases read
  | succ fuel inductionHypothesis =>
      rw [items?] at read
      split at read
      · cases read
        simp
      · obtain ⟨⟨first, afterFirst⟩, readFirst, read⟩ := Option.bind_eq_some_iff.mp read
        have firstWellKeyed := inside _ _ _ readFirst
        simp only at read
        split at read
        · cases read
          simpa using firstWellKeyed
        · obtain ⟨⟨others, afterOthers⟩, readOthers, ⟨⟩⟩ := Option.bind_eq_some_iff.mp read
          rw [List.forall_mem_cons]
          exact ⟨firstWellKeyed, inductionHypothesis readOthers⟩
        · cases read

theorem assignment?_wellKeyed
    (inside : ReadsWellKeyed value?)
    {s rest : List Char}
    {a : Assignment}
    (read : assignment? value? s = some (a, rest)) :
    a.value.WellKeyed := by
  unfold assignment? at read
  obtain ⟨⟨path, key, afterKey⟩, -, read⟩ := Option.bind_eq_some_iff.mp read
  obtain ⟨afterMark, -, read⟩ := Option.bind_eq_some_iff.mp read
  obtain ⟨⟨value, afterValue⟩, readValue, ⟨⟩⟩ := Option.bind_eq_some_iff.mp read
  exact inside _ _ _ readValue

theorem assignments?_wellKeyed
    (inside : ReadsWellKeyed value?)
    {fuel : Nat}
    {s rest : List Char}
    {assignments : List Assignment}
    (read : assignments? value? fuel s = some (assignments, rest)) :
    ∀ a ∈ assignments, a.value.WellKeyed := by
  induction fuel generalizing s assignments rest with
  | zero => cases read
  | succ fuel inductionHypothesis =>
      rw [assignments?] at read
      obtain ⟨⟨first, afterFirst⟩, readFirst, read⟩ := Option.bind_eq_some_iff.mp read
      have firstWellKeyed := assignment?_wellKeyed inside readFirst
      simp only at read
      split at read
      · cases read
        simpa using firstWellKeyed
      · obtain ⟨⟨others, afterOthers⟩, readOthers, ⟨⟩⟩ := Option.bind_eq_some_iff.mp read
        rw [List.forall_mem_cons]
        exact ⟨firstWellKeyed, inductionHypothesis readOthers⟩
      · cases read

theorem inlineTable?_wellKeyed
    (inside : ReadsWellKeyed value?) :
    ReadsWellKeyed (inlineTable? value?) := by
  intro s value rest read
  unfold inlineTable? at read
  split at read
  · cases read
    exact .table (by simp) (by simp)
  · obtain ⟨⟨assignments, afterAll⟩, readAll, read⟩ := Option.bind_eq_some_iff.mp read
    obtain ⟨table, made, ⟨⟩⟩ := Option.bind_eq_some_iff.mp read
    obtain ⟨nodes, folded, rfl⟩ := Option.map_eq_some_iff.mp made
    have valuesWellKeyed := assignments?_wellKeyed inside readAll
    have kept : ∀ a ∈ assignments, ∀ nodes after, Nodes.WellKeyed nodes →
        Nodes.assign a nodes = some after → Nodes.WellKeyed after :=
      fun a mem _ _ wellKeyed => wellKeyed.assignAt (valuesWellKeyed a mem)
    exact foldlM_kept kept Nodes.wellKeyed_nil folded

end Inside

theorem valueWithin?_wellKeyed
    (depth : Nat) :
    ReadsWellKeyed (valueWithin? depth) := by
  induction depth using Nat.strongRecOn with
  | ind depth inductionHypothesis =>
      intro s value rest read
      rw [valueWithin?.eq_def] at read
      split at read
      · split at read
        · cases read
        · next depth =>
          obtain ⟨⟨items, after⟩, readItems, ⟨⟩⟩ := Option.bind_eq_some_iff.mp read
          exact .array (items?_wellKeyed (inductionHypothesis depth (by omega)) readItems)
      · split at read
        · cases read
        · next depth =>
          exact inlineTable?_wellKeyed (inductionHypothesis depth (by omega)) _ _ _ read
      · split at read
        · obtain ⟨_, -, ⟨⟩⟩ := Option.bind_eq_some_iff.mp read
          exact .string _
        · obtain ⟨_, -, ⟨⟩⟩ := Option.bind_eq_some_iff.mp read
          exact .string _
        · exact scalar?_wellKeyed _ _ _ read

/-! ## Statements -/

/-- The value that a statement gives, if it gives one, is well keyed. -/
def Statement.WellKeyed : Statement → Prop
  | .table _ _ | .element _ _ => True
  | .assign a => a.value.WellKeyed

theorem statement?_wellKeyed
    {s rest : List Char}
    {statement : Statement}
    (read : statement? s = some (statement, rest)) :
    statement.WellKeyed := by
  unfold statement? at read
  split at read
  · obtain ⟨⟨path, key, afterKey⟩, -, read⟩ := Option.bind_eq_some_iff.mp read
    obtain ⟨_, -, read⟩ := Option.bind_eq_some_iff.mp read
    obtain ⟨_, -, ⟨⟩⟩ := Option.bind_eq_some_iff.mp read
    trivial
  · obtain ⟨⟨path, key, afterKey⟩, -, read⟩ := Option.bind_eq_some_iff.mp read
    obtain ⟨_, -, ⟨⟩⟩ := Option.bind_eq_some_iff.mp read
    trivial
  · obtain ⟨⟨a, afterValue⟩, assigned, read⟩ := Option.bind_eq_some_iff.mp read
    obtain ⟨_, -, ⟨⟩⟩ := Option.bind_eq_some_iff.mp read
    exact assignment?_wellKeyed (valueWithin?_wellKeyed _) assigned

theorem statements?_wellKeyed
    {fuel : Nat}
    {s : List Char}
    {statements : List Statement}
    (read : statements? fuel s = some statements) :
    ∀ statement ∈ statements, statement.WellKeyed := by
  induction fuel generalizing s statements with
  | zero => cases read
  | succ fuel inductionHypothesis =>
      rw [statements?] at read
      split at read
      · cases read
        simp
      · exact inductionHypothesis read
      · obtain ⟨_, -, read⟩ := Option.bind_eq_some_iff.mp read
        exact inductionHypothesis read
      · obtain ⟨⟨first, afterFirst⟩, readFirst, read⟩ := Option.bind_eq_some_iff.mp read
        obtain ⟨others, readOthers, ⟨⟩⟩ := Option.bind_eq_some_iff.mp read
        rw [List.forall_mem_cons]
        exact ⟨statement?_wellKeyed readFirst, inductionHypothesis readOthers⟩

/-- A statement that is added to a draft keeps its nodes well keyed. -/
theorem Draft.add_wellKeyed
    {draft after : Draft}
    {statement : Statement}
    (wellKeyed : Nodes.WellKeyed draft.nodes)
    (statementWellKeyed : statement.WellKeyed)
    (added : draft.add statement = some after) :
    Nodes.WellKeyed after.nodes := by
  cases statement with
  | table path key =>
      obtain ⟨_, opened, ⟨⟩⟩ := Option.bind_eq_some_iff.mp added
      exact wellKeyed.openTable opened
  | element path key =>
      obtain ⟨_, opened, ⟨⟩⟩ := Option.bind_eq_some_iff.mp added
      exact wellKeyed.openElement opened
  | assign a =>
      obtain ⟨_, changed, ⟨⟩⟩ := Option.bind_eq_some_iff.mp added
      exact wellKeyed.below (fun _ _ wellKeyed => wellKeyed.assignAt statementWellKeyed) changed

/-- Every document that can be read has in each of its tables keys that differ. -/
theorem parse?_wellKeyed
    {text : String}
    {document : Toml}
    (read : parse? text = some document) :
    document.WellKeyed := by
  obtain ⟨statements, readAll, read⟩ := Option.bind_eq_some_iff.mp read
  obtain ⟨draft, added, ⟨⟩⟩ := Option.bind_eq_some_iff.mp read
  have statementsWellKeyed := statements?_wellKeyed readAll
  have kept : ∀ statement ∈ statements, ∀ draft after : Draft, Nodes.WellKeyed draft.nodes →
      draft.add statement = some after → Nodes.WellKeyed after.nodes :=
    fun statement mem _ _ wellKeyed =>
      Draft.add_wellKeyed wellKeyed (statementsWellKeyed statement mem)
  exact foldlM_kept (motive := fun draft : Draft => Nodes.WellKeyed draft.nodes) kept
    Nodes.wellKeyed_nil added

end Toml
end Darkroom
