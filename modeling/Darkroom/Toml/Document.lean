import Darkroom.Toml.Statement

/-!
# TOML documents

A document is the table that its statements build, one after the other.
-/

namespace Darkroom
namespace Toml

/-- A document under construction: its nodes, and the path of the header that values go below. -/
structure Draft where
  /-- The nodes. -/
  nodes : Nodes := []
  /-- The path of the header. -/
  header : List String := []

namespace Draft

/-- The draft after a statement, if it agrees with those before. -/
def add (draft : Draft) : Statement → Option Draft
  | .table path key => do
      let nodes ← draft.nodes.openTable path key
      some ⟨nodes, path ++ [key]⟩
  | .element path key => do
      let nodes ← draft.nodes.openElement path key
      some ⟨nodes, path ++ [key]⟩
  | .assign a => do
      let nodes ← draft.nodes.below (Nodes.assign a) draft.header
      some { draft with nodes }

end Draft

/-- The characters of a text with every line end as a line feed, without a mark of byte order. -/
def normalLines : List Char → List Char
  | '\r' :: '\n' :: rest => '\n' :: normalLines rest
  | c :: rest => c :: normalLines rest
  | [] => []

/-- The table a text describes, if it is a document. -/
def parse? (text : String) : Option Toml := do
  let s := match text.toList with
    | '\uFEFF' :: rest => normalLines rest
    | s => normalLines s
  let statements ← statements? (s.length + 1) s
  let draft ← statements.foldlM Draft.add {}
  some (.table (Node.tableOf draft.nodes))

end Toml
end Darkroom
