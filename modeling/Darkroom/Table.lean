/-!
# Tables of text

Settings and properties by name.  The entries are kept in the order of their names, so that equal
tables have equal entries.
-/

namespace Darkroom

/-- Values by key. -/
structure Table (α : Type) where
  /-- The entries in the order of their keys. -/
  entries : List (String × α) := []
deriving DecidableEq, Repr

namespace Table

variable {α : Type}

/-- No entry. -/
def empty : Table α := {}

instance : Inhabited (Table α) := ⟨empty⟩

/-- An entry put into ordered entries; it replaces one of the same key. -/
def insertEntry (key : String) (value : α) : List (String × α) → List (String × α)
  | [] => [(key, value)]
  | (k, v) :: rest =>
      if key < k then (key, value) :: (k, v) :: rest
      else if key = k then (key, value) :: rest
      else (k, v) :: insertEntry key value rest

/-- The table with a value for a key. -/
def insert (t : Table α) (key : String) (value : α) : Table α :=
  ⟨insertEntry key value t.entries⟩

/-- The value of a key. -/
def get? (t : Table α) (key : String) : Option α :=
  t.entries.lookup key

/-- Whether a key has a value. -/
def contains (t : Table α) (key : String) : Bool :=
  (t.get? key).isSome

/-- The table without a key. -/
def erase (t : Table α) (key : String) : Table α :=
  ⟨t.entries.filter fun (k, _) => k != key⟩

/-- The entries whose key satisfies a test. -/
def filterKeys (t : Table α) (keep : String → Bool) : Table α :=
  ⟨t.entries.filter fun (k, _) => keep k⟩

/-- The table of a list of entries; of two with one key the later stands. -/
def ofList (entries : List (String × α)) : Table α :=
  entries.foldl (fun t (k, v) => t.insert k v) empty

end Table
end Darkroom
