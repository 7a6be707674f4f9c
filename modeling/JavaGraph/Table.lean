/-!
# Tables

A table holds one value per key and remembers the order in which the keys came in. Its view is
`Table.find?`; there is one law per operation.
-/

namespace JavaGraph

/-- Values by key, in the order of the keys' arrival. -/
structure Table (κ α : Type) where
  entries : List (κ × α) := []

namespace Table

variable {κ α : Type} [DecidableEq κ]

/-- The value of a key in a list of entries. -/
def lookup (key : κ) : List (κ × α) → Option α
  | [] => none
  | (k, value) :: rest => if k = key then some value else lookup key rest

/-- The entries with a value put at a key: in its place, or at the end. -/
def put (key : κ) (value : α) : List (κ × α) → List (κ × α)
  | [] => [(key, value)]
  | (k, old) :: rest => if k = key then (key, value) :: rest else (k, old) :: put key value rest

/-- The value of a key. -/
def find? (table : Table κ α) (key : κ) : Option α := lookup key table.entries

/-- Whether a key has a value. -/
def contains (table : Table κ α) (key : κ) : Bool := (table.find? key).isSome

/-- The table with a value for a key, which replaces an earlier one. -/
def insert (table : Table κ α) (key : κ) (value : α) : Table κ α :=
  ⟨put key value table.entries⟩

/-- The table with a value for a key unless it has one. -/
def insertIfNew (table : Table κ α) (key : κ) (value : α) : Table κ α :=
  if table.contains key then table else table.insert key value

/-- The table without a key. -/
def erase (table : Table κ α) (key : κ) : Table κ α :=
  ⟨table.entries.filter fun entry => entry.1 ≠ key⟩

/-- The number of keys. -/
def size (table : Table κ α) : Nat := table.entries.length

/-- The keys in the order of their arrival. -/
def keys (table : Table κ α) : List κ := table.entries.map (·.1)

private theorem lookup_put (entries : List (κ × α)) (key k : κ) (value : α) :
    lookup k (put key value entries) = if key = k then some value else lookup k entries := by
  induction entries with
  | nil => simp [put, lookup]
  | cons entry rest ih =>
    obtain ⟨k', old⟩ := entry
    simp only [put]
    split
    · rename_i h
      subst h
      simp only [lookup]
      split <;> simp_all
    · rename_i h
      simp only [lookup, ih]
      split
      · rename_i h'
        subst h'
        simp [Ne.symm h]
      · rfl

private theorem lookup_filter (entries : List (κ × α)) (key k : κ) :
    lookup k (entries.filter fun entry => entry.1 ≠ key) =
      if key = k then none else lookup k entries := by
  induction entries with
  | nil => simp [lookup]
  | cons entry rest ih =>
    obtain ⟨k', old⟩ := entry
    by_cases h : k' = key
    · subst h
      rw [List.filter_cons_of_neg (by simp), ih, lookup]
      split <;> simp_all
    · rw [List.filter_cons_of_pos (by simpa using h), lookup, lookup, ih]
      split
      · rename_i h'
        subst h'
        simp [Ne.symm h]
      · rfl

/-- The empty table has no value for any key. -/
@[simp] theorem find?_empty (key : κ) : ({} : Table κ α).find? key = none := rfl

/-- An inserted value is found under its key, and under other keys what was there. -/
theorem find?_insert (table : Table κ α) (key k : κ) (value : α) :
    (table.insert key value).find? k = if key = k then some value else table.find? k :=
  lookup_put table.entries key k value

/-- A value inserted for a new key is found there, and under other keys what was there. -/
theorem find?_insertIfNew (table : Table κ α) (key k : κ) (value : α) :
    (table.insertIfNew key value).find? k =
      if key = k then some ((table.find? k).getD value) else table.find? k := by
  unfold insertIfNew contains
  split
  · rename_i h
    split
    · rename_i hk
      subst hk
      obtain ⟨v, hv⟩ := Option.isSome_iff_exists.1 h
      simp [hv]
    · rfl
  · rename_i h
    rw [find?_insert]
    split
    · rename_i hk
      subst hk
      simp only [Bool.not_eq_true, Option.isSome_eq_false_iff, Option.isNone_iff_eq_none] at h
      simp [h]
    · rfl

/-- Nothing is found under an erased key, and under other keys what was there. -/
theorem find?_erase (table : Table κ α) (key k : κ) :
    (table.erase key).find? k = if key = k then none else table.find? k :=
  lookup_filter table.entries key k

end Table

end JavaGraph
