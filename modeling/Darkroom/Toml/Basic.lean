/-!
# TOML values

The values a configuration file can hold, their parts by path, and merging: an overlay is laid over
a base, table by table.
-/

namespace Darkroom

/-- A value.  The keys of a table are different from one another. -/
inductive Toml where
  /-- A text. -/
  | string (text : String)
  /-- A whole number. -/
  | integer (value : Int)
  /-- A number with a fraction. -/
  | float (value : Float)
  /-- A truth value. -/
  | boolean (value : Bool)
  /-- A date, a time or both, as written. -/
  | datetime (text : String)
  /-- A sequence. -/
  | array (items : List Toml)
  /-- Values by key. -/
  | table (entries : List (String × Toml))
deriving Repr, Inhabited

namespace Toml

/-- Entries with the value of a key replaced, or added at the end, by what becomes of the value that
was there. -/
def upsert {α : Type} (key : String) (value : Option α → α) :
    List (String × α) → List (String × α)
  | [] => [(key, value none)]
  | (k, v) :: rest =>
      if k = key then (k, value (some v)) :: rest else (k, v) :: upsert key value rest

/-- The value at a path of keys. -/
def get? : Toml → List String → Option Toml
  | value, [] => some value
  | .table entries, key :: rest => (entries.lookup key).bind fun value => value.get? rest
  | _, _ :: _ => none

mutual

/-- An overlay laid over a base.  Where both are tables the keys of both are kept; anywhere else the
overlay stands alone. -/
def merge : (base overlay : Toml) → Toml
  | .table base, .table overlay => .table (mergeEntries base overlay)
  | _, overlay => overlay

/-- The entries of an overlay laid over those of a base. -/
def mergeEntries (base : List (String × Toml)) :
    (overlay : List (String × Toml)) → List (String × Toml)
  | [] => base
  | (key, value) :: rest =>
      let merged := upsert key (fun
        | some old => merge old value
        | none => value) base
      mergeEntries merged rest

end

/-- An overlay laid over a base, if there is one. -/
def mergeOption (base : Toml) : Option Toml → Toml
  | some overlay => base.merge overlay
  | none => base

end Toml
end Darkroom
