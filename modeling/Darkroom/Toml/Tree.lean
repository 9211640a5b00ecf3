import Darkroom.Toml.Basic

/-!
# TOML tables under construction

A table can come to be in three ways: its own header opens it, a header below it implies it, or
dotted keys do.  A table is opened by one header at most, and dotted keys add only to tables that
dotted keys made.
-/

namespace Darkroom
namespace Toml

/-- How a table came to be. -/
inductive Origin where
  /-- By its own header. -/
  | header
  /-- By a header below it. -/
  | implied
  /-- By dotted keys. -/
  | dotted
deriving DecidableEq, Repr

/-- A part of a document under construction. -/
inductive Node where
  /-- A finished value. -/
  | value (value : Toml)
  /-- A table. -/
  | table (origin : Origin) (entries : List (String × Node))
  /-- A sequence of tables, of which the last can still grow. -/
  | tables (earlier : List (List (String × Node))) (last : List (String × Node))

/-- The parts of a table by key. -/
abbrev Nodes := List (String × Node)

/-- A value for a dotted key. -/
structure Assignment where
  /-- The keys in front of the last dot. -/
  path : List String
  /-- The last key. -/
  key : String
  /-- The value. -/
  value : Toml

namespace Node

mutual

/-- The value of a finished part. -/
def toToml : Node → Toml
  | .value v => v
  | .table _ entries => .table (tableOf entries)
  | .tables earlier last => .array (tablesOf earlier ++ [.table (tableOf last)])

/-- The values of finished parts. -/
def tableOf : List (String × Node) → List (String × Toml)
  | [] => []
  | (key, node) :: rest => (key, node.toToml) :: tableOf rest

/-- The values of finished tables. -/
def tablesOf : List (List (String × Node)) → List Toml
  | [] => []
  | entries :: rest => .table (tableOf entries) :: tablesOf rest

end

end Node

namespace Nodes

/-- The nodes with the node of a key set. -/
def set (key : String) (node : Node) (nodes : Nodes) : Nodes :=
  upsert key (fun _ => node) nodes

/-- The nodes after a value was added for a dotted key.  The table that receives the value must be
open to it: the one of the current header, or one that dotted keys made. -/
def assignAt (key : String) (value : Toml) : (path : List String) → (isOpen : Bool) → Nodes →
    Option Nodes
  | [], isOpen, nodes =>
      if isOpen && (nodes.lookup key).isNone then some (set key (.value value) nodes) else none
  | name :: path, _, nodes =>
      match nodes.lookup name with
      | none => do
          let child ← assignAt key value path true []
          some (set name (.table .dotted child) nodes)
      | some (.table .header _) | some (.value _) => none
      | some (.table origin child) => do
          let child ← assignAt key value path (origin == .dotted) child
          some (set name (.table origin child) nodes)
      | some (.tables earlier last) => do
          let last ← assignAt key value path false last
          some (set name (.tables earlier last) nodes)

/-- The nodes after an assignment. -/
def assign (a : Assignment) (nodes : Nodes) : Option Nodes :=
  assignAt a.key a.value a.path true nodes

/-- The nodes after a change below the tables that a header names; missing ones are implied, and a
sequence stands for its last table. -/
def below (change : Nodes → Option Nodes) : (path : List String) → Nodes → Option Nodes
  | [], nodes => change nodes
  | name :: path, nodes =>
      match nodes.lookup name with
      | none => do
          let child ← below change path []
          some (set name (.table .implied child) nodes)
      | some (.value _) => none
      | some (.table origin child) => do
          let child ← below change path child
          some (set name (.table origin child) nodes)
      | some (.tables earlier last) => do
          let last ← below change path last
          some (set name (.tables earlier last) nodes)

/-- The nodes after a header opened a table. -/
def openTable (path : List String) (key : String) : Nodes → Option Nodes :=
  below (fun nodes =>
    match nodes.lookup key with
    | none => some (set key (.table .header []) nodes)
    | some (.table .implied child) => some (set key (.table .header child) nodes)
    | some _ => none) path

/-- The nodes after a header opened one more table of a sequence. -/
def openElement (path : List String) (key : String) : Nodes → Option Nodes :=
  below (fun nodes =>
    match nodes.lookup key with
    | none => some (set key (.tables [] []) nodes)
    | some (.tables earlier last) => some (set key (.tables (earlier ++ [last]) []) nodes)
    | some _ => none) path

/-- The table that assignments make, if they agree. -/
def ofAssignments? (assignments : List Assignment) : Option Toml :=
  (assignments.foldlM (fun nodes a => assign a nodes) ([] : Nodes)).map fun nodes =>
    .table (Node.tableOf nodes)

end Nodes
end Toml
end Darkroom
