import Darkroom.Table

/-!
# Entries of tables

What is put under a key is found there until it is removed, and other keys do not notice.
-/

namespace Darkroom
namespace Table

variable {α : Type} (t : Table α)

theorem lookup_cons_eq
    (key k : String)
    (v : α)
    (entries : List (String × α)) :
    ((k, v) :: entries).lookup key = if key = k then some v else entries.lookup key := by
  by_cases same : key = k
  · simp [same]
  · simp [List.lookup_cons, same, beq_false_of_ne same]

/-- A key that occurs once is found with its value. -/
theorem lookup_eq_some_of_mem
    {κ : Type}
    [DecidableEq κ]
    {entries : List (κ × α)}
    (nodup : (entries.map Prod.fst).Nodup)
    {key : κ}
    {value : α}
    (mem : (key, value) ∈ entries) :
    entries.lookup key = some value := by
  induction entries with
  | nil => exact absurd mem List.not_mem_nil
  | cons entry rest inductionHypothesis =>
      rw [List.map_cons, List.nodup_cons] at nodup
      rcases List.mem_cons.mp mem with rfl | later
      · exact List.lookup_cons_self
      · have different : (key == entry.1) = false := by
          rw [beq_eq_false_iff_ne]
          rintro rfl
          exact nodup.1 (List.mem_map.mpr ⟨_, later, rfl⟩)
        rw [List.lookup_cons, different]
        exact inductionHypothesis nodup.2 later

theorem lookup_insertEntry
    (key other : String)
    (value : α)
    (entries : List (String × α)) :
    (insertEntry key value entries).lookup other =
      if other = key then some value else entries.lookup other := by
  induction entries with
  | nil => simp [insertEntry, lookup_cons_eq]
  | cons entry rest inductionHypothesis =>
      obtain ⟨k, v⟩ := entry
      by_cases before : key < k
      · simp [insertEntry, before, lookup_cons_eq]
      · by_cases same : key = k
        · by_cases found : other = k <;> simp [insertEntry, same, lookup_cons_eq, found]
        · by_cases found : other = k
          · simp [insertEntry, before, same, found, Ne.symm same]
          · simp [insertEntry, before, same, lookup_cons_eq, found, inductionHypothesis]

theorem insertEntry_insertEntry
    (key : String)
    (value : α)
    (entries : List (String × α)) :
    insertEntry key value (insertEntry key value entries) = insertEntry key value entries := by
  induction entries with
  | nil => simp [insertEntry]
  | cons entry rest inductionHypothesis =>
      obtain ⟨k, v⟩ := entry
      by_cases before : key < k
      · simp [insertEntry, before]
      · by_cases same : key = k
        · simp [insertEntry, same]
        · simp [insertEntry, before, same, inductionHypothesis]

theorem get?_insert
    (key other : String)
    (value : α) :
    (t.insert key value).get? other = if other = key then some value else t.get? other :=
  lookup_insertEntry key other value t.entries

@[simp] theorem get?_insert_self
    (key : String)
    (value : α) :
    (t.insert key value).get? key = some value := by
  rw [get?_insert, if_pos rfl]

theorem get?_insert_of_ne
    {key other : String}
    (different : other ≠ key)
    (value : α) :
    (t.insert key value).get? other = t.get? other := by
  rw [get?_insert, if_neg different]

/-- An entry that is put in twice is the same entry. -/
@[simp] theorem insert_insert
    (key : String)
    (value : α) :
    (t.insert key value).insert key value = t.insert key value :=
  congrArg Table.mk (insertEntry_insertEntry key value t.entries)

theorem get?_erase
    (key other : String) :
    (t.erase key).get? other = if other = key then none else t.get? other := by
  unfold get? erase
  induction t.entries with
  | nil => simp
  | cons entry rest inductionHypothesis =>
      obtain ⟨k, v⟩ := entry
      by_cases same : k = key
      · rw [List.filter_cons_of_neg (by simp [same]), inductionHypothesis, lookup_cons_eq, same]
        by_cases found : other = key <;> simp [found]
      · rw [List.filter_cons_of_pos (by simp [same]), lookup_cons_eq, inductionHypothesis,
          lookup_cons_eq]
        by_cases found : other = k
        · simp [found, same]
        · simp [found]

@[simp] theorem get?_erase_self
    (key : String) :
    (t.erase key).get? key = none := by
  rw [get?_erase, if_pos rfl]

theorem get?_erase_of_ne
    {key other : String}
    (different : other ≠ key) :
    (t.erase key).get? other = t.get? other := by
  rw [get?_erase, if_neg different]

@[simp] theorem erase_erase
    (key : String) :
    (t.erase key).erase key = t.erase key := by
  simp [erase]

end Table
end Darkroom
