/-!
# The cache of auxiliary images

Settings and operators name further images by path.  Each path is read once; a failed read is tried
again the next time.  Of a file with several frames the first counts, and a write to the path drops
the entry.
-/

namespace Darkroom

/-- Items by path. -/
structure ImageCache (α : Type) where
  /-- The entries, the newest first. -/
  entries : List (String × α) := []
deriving DecidableEq, Repr

namespace ImageCache

variable {α : Type}

/-- Nothing cached. -/
def empty : ImageCache α := {}

instance : Inhabited (ImageCache α) := ⟨empty⟩

/-- The item of a path. -/
def get? (cache : ImageCache α) (path : String) : Option α :=
  cache.entries.lookup path

/-- Whether a path has an item. -/
def contains (cache : ImageCache α) (path : String) : Bool :=
  (cache.get? path).isSome

/-- The cache with the first of the frames read from a path, if there is one. -/
def store (cache : ImageCache α) (path : String) (frames : List α) : ImageCache α :=
  match frames with
  | [] => cache
  | frame :: _ => ⟨(path, frame) :: cache.entries⟩

/-- The cache without a path, and whether it had an entry. -/
def evict (cache : ImageCache α) (path : String) : Bool × ImageCache α :=
  (cache.contains path, ⟨cache.entries.filter fun (p, _) => p != path⟩)

/-- The number of entries. -/
def size (cache : ImageCache α) : Nat :=
  cache.entries.length

/-- The item of a path and the cache after it was asked for; `frames` are read only on a miss. -/
def getOrRead {ε : Type} (cache : ImageCache α) (path : String)
    (frames : Unit → Except ε (List α)) : Except ε (Option α × ImageCache α) :=
  match cache.get? path with
  | some item => .ok (some item, cache)
  | none => (frames ()).map fun frames => (frames.head?, cache.store path frames)

end ImageCache
end Darkroom
