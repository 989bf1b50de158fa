import ImportPlan.Proofs.Block.Contents
import ImportPlan.Proofs.Block.Rendering
import ImportPlan.Proofs.FirstAndLast
import ImportPlan.Proofs.Success
import ImportPlan.Redirection

namespace ImportPlan

/-!
# Redirections given by entries

Where entries are collected in a table first, the last one for an id counts, and only that is
checked. An earlier one that is no redirection at all does no harm.

* `Table.get?_ofList_eq_some_iff` — a look-up finds the last entry for its key.
* `Redirection.ofList_eq_ok_iff` — entries are accepted just if all are between import paths.
* `Redirection.ofList_ofList_eq_ok_iff` — those that count are, where they are collected first.
-/

namespace Table

variable {entries : List (String × String)} {key value : String}

/-- **A look-up finds the last entry for its key.** -/
theorem get?_ofList_eq_some_iff :
    (ofList entries).get? key = some value ↔
      IsLast (fun e => e.1 = key) entries (key, value) := by
  -- entries are inserted from the first to the last, so the induction goes from the end
  induction entries using List.reverseRecOn with
  | nil => exact iff_of_false nofun not_isLast_nil
  | append_singleton entries e ih =>
    have hlast : ofList (entries ++ [e]) = (ofList entries).insert e.1 e.2 := List.foldl_concat ..
    rw [hlast, get?_insert, isLast_concat_iff, ← ih]
    obtain ⟨key', value'⟩ := e
    by_cases hkey : key = key'
    · subst hkey
      simp [eq_comm]
    · simp [hkey, Ne.symm hkey]

/-- The entries of a table that was built from entries are the last ones for their keys. -/
theorem mem_entries_ofList_iff {e : String × String} :
    e ∈ (ofList entries).entries ↔ IsLast (fun e' => e'.1 = e.1) entries e := by
  rw [← findEntry?_eq_some_iff (nodup_keys_ofList entries)]
  exact get?_ofList_eq_some_iff

end Table

namespace Redirection

variable {entries : List (String × String)} {r : Redirection}

/-- Further entries are accepted just if all of them are between import paths. -/
theorem foldlM_insert_eq_ok_iff {r' : Redirection} :
    entries.foldlM (fun r e => r.insert e.1 e.2) r = .ok r' ↔
      (∀ e ∈ entries, Path.isValid e.1 = true ∧ Path.isValid e.2 = true) ∧
        r' = ⟨entries.foldl (fun t e => t.insert e.1 e.2) r.table⟩ := by
  induction entries generalizing r with
  | nil => exact ⟨fun h => ⟨nofun, (Except.ok.inj h).symm⟩, fun h => congrArg Except.ok h.2.symm⟩
  | cons e entries ih =>
    rw [List.foldlM_cons, bind_eq_ok_iff, List.forall_mem_cons, List.foldl_cons]
    constructor
    · rintro ⟨r₁, hinsert, hrest⟩
      obtain ⟨hid, htarget, rfl⟩ := insert_eq_ok_iff.1 hinsert
      obtain ⟨hvalid, rfl⟩ := ih.1 hrest
      exact ⟨⟨⟨hid, htarget⟩, hvalid⟩, rfl⟩
    · rintro ⟨⟨⟨hid, htarget⟩, hvalid⟩, rfl⟩
      exact ⟨_, insert_eq_ok_iff.2 ⟨hid, htarget, rfl⟩, ih.2 ⟨hvalid, rfl⟩⟩

/-- **Entries are accepted just if all of them are between import paths.** -/
theorem ofList_eq_ok_iff :
    ofList entries = .ok r ↔
      (∀ e ∈ entries, Path.isValid e.1 = true ∧ Path.isValid e.2 = true) ∧
        r = ⟨Table.ofList entries⟩ := foldlM_insert_eq_ok_iff

/-- **Entries that are collected first are accepted just if those that count are between import
paths.** -/
theorem ofList_ofList_eq_ok_iff :
    ofList (Table.ofList entries).entries = .ok r ↔
      (∀ id target, IsLast (fun e => e.1 = id) entries (id, target) →
        Path.isValid id = true ∧ Path.isValid target = true) ∧
        r = ⟨Table.ofList entries⟩ := by
  -- the entries of a table have keys of their own and build the same table again
  have hsame : Table.ofList (Table.ofList entries).entries = Table.ofList entries :=
    congrArg Table.mk (Table.entries_ofList (Table.nodup_keys_ofList entries))
  rw [ofList_eq_ok_iff, hsame]
  simp only [Table.mem_entries_ofList_iff, Prod.forall]

end Redirection

end ImportPlan
