import ImportPlan.Error
import ImportPlan.Path
import ImportPlan.Table

namespace ImportPlan

/-!
# Redirections

A redirection sends an import id to the id to use in its place, such as the fork of a library. It is
built once from the settings and read by every file.

* `Redirection.insert`, `Redirection.ofList` — both sides have to be import paths.
* `Redirection.resolve` — one look-up; what it finds is not looked up again.
* `Redirection.resolve_insert` — an insertion redirects one id and no other.
-/

/-- A table from import paths to import paths. -/
structure Redirection where
  table : Table
  deriving DecidableEq, Repr

namespace Redirection

/-- The redirection that leaves every id alone. -/
def empty : Redirection := ⟨Table.empty⟩

/-- The number of redirected ids. -/
def size (r : Redirection) : Nat := r.table.size

/-- Whether no id is redirected. -/
def isEmpty (r : Redirection) : Bool := r.table.isEmpty

/-- Refuses a text that is no import path. -/
def checkPath (path : String) : Except InputError Unit :=
  if Path.isValid path then .ok () else .error (.invalidPath path)

/-- Sends `id` to `target` from now on; of two invalid paths the id is reported. -/
def insert (r : Redirection) (id target : String) : Except InputError Redirection := do
  checkPath id
  checkPath target
  return ⟨r.table.insert id target⟩

/-- The redirection with these entries, a later one for the same id winning. -/
def ofList (entries : List (String × String)) : Except InputError Redirection :=
  entries.foldlM (fun r e => r.insert e.1 e.2) empty

/-- The id to use in place of `id`: `id` itself if it has no entry. -/
def resolve (r : Redirection) (id : String) : String := (r.table.get? id).getD id

/-! ### Look-ups after insertions -/

@[simp] theorem resolve_empty (id : String) : empty.resolve id = id := rfl

/-- An insertion succeeds exactly for two import paths. -/
theorem insert_eq_ok_iff {r r' : Redirection} {id target : String} :
    r.insert id target = .ok r' ↔
      Path.isValid id ∧ Path.isValid target ∧ r' = ⟨r.table.insert id target⟩ := by
  by_cases h : Path.isValid id <;> by_cases h' : Path.isValid target <;>
    simp [insert, checkPath, h, h', bind, Except.bind, pure, Except.pure, eq_comm]

/-- An insertion redirects one id and no other. -/
theorem resolve_insert {r r' : Redirection} {id target : String} (h : r.insert id target = .ok r')
    (k : String) : r'.resolve k = if k = id then target else r.resolve k := by
  obtain ⟨-, -, rfl⟩ := insert_eq_ok_iff.1 h
  by_cases hk : k = id <;> simp [resolve, Table.get?_insert, hk]

end Redirection

end ImportPlan
