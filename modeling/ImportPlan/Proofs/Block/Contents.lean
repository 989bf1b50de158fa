import Mathlib
import ImportPlan.Block

namespace ImportPlan

/-!
# Contents of a block

What a table built from entries holds, and what a block holds that is built from bindings.

* `Table.findEntry?_eq_some_iff`, `Table.get?_eq_of_sublist` — if no key comes twice, look-ups find
  just the entries, and more entries change none of them.
* `Table.contains_ofList` — a table holds the keys of the entries that it is built from.
* `Table.entries_ofList` — if no key comes twice, it holds just these entries in their order.
* `Block.contains_ofBindings` — a block holds the ids that are bound and not held back.
* `Block.imports_ofBindings` — if no id is bound twice, it lists the bindings that are not held
  back; `Block.nodup_paths_ofBindings` — then no path comes twice.
* `Block.imports_sublist_ofBindings` — more bindings and fewer paths held back only add imports.
-/

namespace Table

/-- The entry of a new key comes behind all others. -/
theorem insertEntry_of_not_mem {key : String} (value : String) {entries : List (String × String)}
    (h : key ∉ entries.map (·.1)) : insertEntry key value entries = entries ++ [(key, value)] := by
  induction entries with
  | nil => rfl
  | cons e rest ih =>
    rw [List.map_cons, List.mem_cons, not_or] at h
    have hne : ¬ e.1 = key := fun heq => h.1 heq.symm
    rw [insertEntry, if_neg hne, ih h.2, List.cons_append]

/-- If no key comes twice, a look-up finds just the entries. -/
theorem findEntry?_eq_some_iff {entries : List (String × String)} (h : (entries.map (·.1)).Nodup)
    {key value : String} : findEntry? key entries = some value ↔ (key, value) ∈ entries := by
  induction entries with
  | nil => exact iff_of_false nofun List.not_mem_nil
  | cons e rest ih =>
    rw [List.map_cons, List.nodup_cons] at h
    rw [List.mem_cons, findEntry?]
    by_cases hkey : e.1 = key
    · -- the rest has no entry with this key
      have hrest : (key, value) ∉ rest := fun hmem => h.1 (hkey ▸ List.mem_map_of_mem hmem)
      rw [if_pos hkey, Option.some.injEq, or_iff_left hrest, Prod.ext_iff]
      exact ⟨fun hvalue => ⟨hkey.symm, hvalue.symm⟩, fun heq => heq.2.symm⟩
    · have hne : (key, value) ≠ e := fun heq => hkey (heq ▸ rfl)
      rw [if_neg hkey, ih h.2, or_iff_right hne]

/-- A table with more entries agrees with a smaller one about the keys of the smaller one. -/
theorem get?_eq_of_sublist {t t' : Table} (h : t.entries.Sublist t'.entries)
    (hkeys : (t'.entries.map (·.1)).Nodup) {key : String} (hkey : t.contains key = true) :
    t'.get? key = t.get? key := by
  obtain ⟨value, hvalue⟩ := Option.isSome_iff_exists.1 hkey
  have hmem : (key, value) ∈ t.entries :=
    (findEntry?_eq_some_iff (hkeys.sublist (h.map (·.1)))).1 hvalue
  have hlarger : t'.get? key = some value := (findEntry?_eq_some_iff hkeys).2 (h.subset hmem)
  rw [hlarger, hvalue]

/-- Inserting entries adds their keys to those of a table. -/
theorem contains_foldl_insert (entries : List (String × String)) (t : Table) (key : String) :
    (entries.foldl (fun t e => t.insert e.1 e.2) t).contains key = true ↔
      t.contains key = true ∨ key ∈ entries.map (·.1) := by
  induction entries generalizing t with
  | nil => simp
  | cons e rest ih =>
    rw [List.foldl_cons, ih, contains, contains, get?_insert, List.map_cons, List.mem_cons]
    by_cases h : e.1 = key
    · simp [h]
    · rw [if_neg (Ne.symm h)]
      simp [Ne.symm h]

/-- A table holds the keys of the entries that it is built from. -/
theorem contains_ofList (entries : List (String × String)) (key : String) :
    (ofList entries).contains key = true ↔ key ∈ entries.map (·.1) := by
  rw [ofList, contains_foldl_insert]
  simp [contains]

/-- Entries with new and distinct keys come behind those of a table in their order. -/
theorem entries_foldl_insert (entries : List (String × String)) (t : Table)
    (h : ((t.entries ++ entries).map (·.1)).Nodup) :
    (entries.foldl (fun t e => t.insert e.1 e.2) t).entries = t.entries ++ entries := by
  induction entries generalizing t with
  | nil => simp
  | cons e rest ih =>
    -- the key is new to the table, and the keys of the rest stay new to the larger one
    have hnew : e.1 ∉ t.entries.map (·.1) := by
      rw [List.map_append, List.map_cons] at h
      exact fun hmem => (List.disjoint_of_nodup_append h) hmem List.mem_cons_self
    have hinsert : (t.insert e.1 e.2).entries = t.entries ++ [e] := insertEntry_of_not_mem e.2 hnew
    rw [List.foldl_cons, ih, hinsert, List.append_assoc, List.singleton_append]
    rwa [hinsert, List.append_assoc, List.singleton_append]

/-- If no key comes twice, a table holds just the entries that it is built from, in their order. -/
theorem entries_ofList {entries : List (String × String)} (h : (entries.map (·.1)).Nodup) :
    (ofList entries).entries = entries := by
  rw [ofList, entries_foldl_insert entries empty h]
  rfl

end Table

namespace Block

/-- A block holds the ids that are bound and not held back. -/
theorem contains_ofBindings (isHeldBack : String → Bool) (bindings : List Binding)
    (path : String) :
    (ofBindings isHeldBack bindings).contains path = true ↔
      path ∈ bindings.map (·.id) ∧ isHeldBack path = false := by
  show (Table.ofList _).contains path = true ↔ _
  rw [Table.contains_ofList]
  simp only [List.map_map, List.mem_map, List.mem_filter]
  constructor
  · rintro ⟨b, ⟨hb, hshown⟩, rfl⟩
    exact ⟨⟨b, hb, rfl⟩, by simpa using hshown⟩
  · rintro ⟨⟨b, hb, rfl⟩, hshown⟩
    exact ⟨b, ⟨hb, by simp [hshown]⟩, rfl⟩

/-- If no id is bound twice, a block lists the bindings that are not held back, in their order. -/
theorem imports_ofBindings (isHeldBack : String → Bool) {bindings : List Binding}
    (h : (bindings.map (·.id)).Nodup) :
    (ofBindings isHeldBack bindings).imports =
      (bindings.filter fun b => !isHeldBack b.id).map
        fun b => (b.id, Path.shownAlias b.name b.id) := by
  refine Table.entries_ofList ?_
  rw [List.map_map]
  exact h.sublist (List.filter_sublist.map _)

/-- If no id is bound twice, no path comes twice in a block. -/
theorem nodup_paths_ofBindings (isHeldBack : String → Bool) {bindings : List Binding}
    (h : (bindings.map (·.id)).Nodup) :
    ((ofBindings isHeldBack bindings).imports.map (·.1)).Nodup := by
  rw [imports_ofBindings isHeldBack h, List.map_map]
  exact h.sublist (List.filter_sublist.map _)

/-- More bindings and fewer paths held back only add imports: those that were there keep their
aliases and their order. -/
theorem imports_sublist_ofBindings {isHeldBack isHeldBack' : String → Bool}
    {bindings bindings' : List Binding} (hbindings : bindings.Sublist bindings')
    (hids : (bindings'.map (·.id)).Nodup)
    (hheld : ∀ path, isHeldBack' path = true → isHeldBack path = true) :
    (ofBindings isHeldBack bindings).imports.Sublist
      (ofBindings isHeldBack' bindings').imports := by
  have hshown : ∀ b : Binding, (!isHeldBack b.id) = true → (!isHeldBack' b.id) = true := by
    intro b hb
    have hnot := mt (hheld b.id) (by simpa using hb)
    simpa using hnot
  rw [imports_ofBindings isHeldBack (hids.sublist (hbindings.map _)),
    imports_ofBindings isHeldBack' hids]
  have hfewer := List.monotone_filter_right bindings hshown
  have hmore := hbindings.filter fun b => !isHeldBack' b.id
  exact (hfewer.trans hmore).map _

end Block

end ImportPlan
