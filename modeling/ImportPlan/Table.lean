namespace ImportPlan

/-!
# Ordered tables

A finite map from texts to texts that keeps the order in which its keys came.

* `Table.insert` — replaces the value of a key in place, and appends a new key.
* `Table.get?`, `Table.contains` — look up a key.
* `Table.get?_insert` — an insertion changes the value of one key and of no other.
-/

/-- The entries of a finite map in the order of their keys' first insertion. -/
structure Table where
  entries : List (String × String)
  deriving DecidableEq, Repr

namespace Table

/-- The table without entries. -/
def empty : Table := ⟨[]⟩

/-- The number of keys. -/
def size (t : Table) : Nat := t.entries.length

/-- Whether there is no key. -/
def isEmpty (t : Table) : Bool := t.entries.isEmpty

/-- The value of the first entry with this key. -/
def findEntry? (key : String) : List (String × String) → Option String
  | [] => none
  | (k, v) :: rest => if k = key then some v else findEntry? key rest

/-- The value of a key. -/
def get? (t : Table) (key : String) : Option String := findEntry? key t.entries

/-- Whether a key has a value. -/
def contains (t : Table) (key : String) : Bool := (t.get? key).isSome

/-- The entries with the value of `key` replaced, or with `key` appended. -/
def insertEntry (key value : String) : List (String × String) → List (String × String)
  | [] => [(key, value)]
  | (k, v) :: rest => if k = key then (k, value) :: rest else (k, v) :: insertEntry key value rest

/-- Gives `key` the value `value`; a key that has a value keeps its place. -/
def insert (t : Table) (key value : String) : Table := ⟨insertEntry key value t.entries⟩

/-- The table in which a later value of a key wins. -/
def ofList (entries : List (String × String)) : Table :=
  entries.foldl (fun t e => t.insert e.1 e.2) empty

/-! ### Look-ups after insertions -/

@[simp] theorem get?_empty (key : String) : empty.get? key = none := rfl

/-- The look-up in entries after an insertion. -/
theorem findEntry?_insertEntry (key value k : String) (entries : List (String × String)) :
    findEntry? k (insertEntry key value entries)
      = if k = key then some value else findEntry? k entries := by
  induction entries with
  | nil => grind [insertEntry, findEntry?]
  | cons e rest ih => grind [insertEntry, findEntry?]

/-- An insertion changes the value of one key and of no other. -/
theorem get?_insert (t : Table) (key value k : String) :
    (t.insert key value).get? k = if k = key then some value else t.get? k :=
  findEntry?_insertEntry key value k t.entries

end Table

end ImportPlan
