import ImportPlan.Config
import ImportPlan.Proofs.Success

namespace ImportPlan

/-!
# Redirections that can be built

A redirection is built entry by entry or read from settings. Every way checks both sides of an
entry, so that a redirection never leads from an import path to anything else than an import path.

* `Redirection.Built` — the ways to come by a redirection.
* `Redirection.Between` — all entries are between import paths; `Redirection.Between.insert` keeps
  this.
* `Config.between_of_ofOptions`, `Config.between_of_ofJson` — it holds of redirections in settings.
* `Redirection.Built.between` — however a redirection is built, it holds of it;
  `Redirection.Between.isValid_resolve` — import paths are then sent to import paths.
-/

/-- An insertion adds one entry, and all others were there. -/
theorem Table.mem_insertEntry {key value : String} {entries : List (String × String)}
    {e : String × String} (h : e ∈ insertEntry key value entries) :
    e = (key, value) ∨ e ∈ entries := by
  induction entries with
  | nil => exact .inl (List.mem_singleton.1 h)
  | cons e' rest ih =>
    rw [insertEntry] at h
    split at h
    · next heq =>
      rcases List.mem_cons.1 h with rfl | hmem
      · exact .inl (by rw [heq])
      · exact .inr (List.mem_cons_of_mem e' hmem)
    · rcases List.mem_cons.1 h with rfl | hmem
      · exact .inr List.mem_cons_self
      · exact (ih hmem).imp_right (List.mem_cons_of_mem e')

/-- What a look-up finds is in an entry. -/
theorem Table.mem_entries_of_get?_eq_some {t : Table} {key value : String}
    (h : t.get? key = some value) : (key, value) ∈ t.entries := by
  obtain ⟨entries⟩ := t
  rw [get?] at h
  induction entries with
  | nil => cases h
  | cons e rest ih =>
    unfold findEntry? at h
    split at h
    · next heq =>
      cases h
      rw [← heq]
      exact List.mem_cons_self
    · exact List.mem_cons_of_mem e (ih h)

namespace Redirection

/-! ### Entries between import paths -/

/-- All entries are between import paths. -/
def Between (r : Redirection) : Prop :=
  ∀ e ∈ r.table.entries, Path.isValid e.1 = true ∧ Path.isValid e.2 = true

theorem between_empty : empty.Between := nofun

variable {r r' : Redirection}

/-- An insertion refuses all else than import paths. -/
theorem Between.insert (hr : r.Between) {id target : String} (h : r.insert id target = .ok r') :
    r'.Between := by
  obtain ⟨hid, htarget, rfl⟩ := insert_eq_ok_iff.1 h
  intro e he
  rcases Table.mem_insertEntry he with rfl | hmem
  · exact ⟨hid, htarget⟩
  · exact hr e hmem

/-- So does a redirection that is built from a list. -/
theorem between_of_ofList {entries : List (String × String)} (h : ofList entries = .ok r) :
    r.Between :=
  of_foldlM_eq_ok (fun _ _ _ hb hinsert => hb.insert hinsert) between_empty h

/-- Where all entries are between import paths, import paths are sent to import paths. -/
theorem Between.isValid_resolve (hr : r.Between) {id : String} (hid : Path.isValid id = true) :
    Path.isValid (r.resolve id) = true := by
  rw [resolve]
  cases hfind : r.table.get? id with
  | none => exact hid
  | some target => exact (hr _ (Table.mem_entries_of_get?_eq_some hfind)).2

end Redirection

/-! ### Settings -/

namespace Config

/-- One option sends the runtime to an import path, or leaves the redirection as it is. -/
theorem between_of_apply {c c' : Config} {option : String} (hc : c.redirection.Between)
    (h : c.apply option = .ok c') : c'.redirection.Between := by
  -- options about features go another way
  have hfeatures : ∀ {x : Except InputError Features},
      (do return { c with features := ← x }) = Except.ok c' → c'.redirection.Between := by
    intro x hx
    obtain ⟨fs, -, heq⟩ := bind_eq_ok_iff.1 hx
    cases heq
    exact hc
  unfold apply at h
  split at h
  · split at h
    · obtain ⟨r, hr, heq⟩ := bind_eq_ok_iff.1 h
      cases heq
      exact hc.insert hr
    · exact hfeatures h
  · exact hfeatures h

/-- The redirection given by options. -/
theorem between_of_ofOptions {options : List String} {c : Config}
    (h : ofOptions options = .ok c) : c.redirection.Between :=
  of_foldlM_eq_ok (P := fun c => c.redirection.Between) (fun _ _ _ hb => between_of_apply hb)
    Redirection.between_empty h

/-- The redirection of written settings. -/
theorem between_of_ofSettings {s : Settings} {c : Config} (h : ofSettings s = .ok c) :
    c.redirection.Between := by
  obtain ⟨r, hr, hrest⟩ := bind_eq_ok_iff.1 h
  have hbetween := Redirection.between_of_ofList hr
  cases hpath : s.runtimePath with
  | none =>
    rw [hpath] at hrest
    cases hrest
    exact hbetween
  | some path =>
    rw [hpath] at hrest
    obtain ⟨r', hr', heq⟩ := bind_eq_ok_iff.1 hrest
    cases heq
    exact hbetween.insert hr'

/-- The redirection that is read from a text. -/
theorem between_of_ofJson {text : String} {c : Config} (h : ofJson text = .ok c) :
    c.redirection.Between := by
  obtain ⟨s, -, hs⟩ := bind_eq_ok_iff.1 h
  obtain ⟨c', hc', hrest⟩ := bind_eq_ok_iff.1 hs
  have hbetween := between_of_ofSettings (mapError_eq_ok_iff.1 hc')
  split at hrest
  · cases hrest
  · cases hrest
    exact hbetween

end Config

/-! ### Ways to build a redirection -/

/-- The ways to come by a redirection: from nothing or from a list, entry by entry, or from
settings. -/
inductive Redirection.Built : Redirection → Prop
  | empty : Built .empty
  | insert {r r' : Redirection} (hr : Built r) {id target : String}
    (h : r.insert id target = .ok r') : Built r'
  | ofList {entries : List (String × String)} {r : Redirection} (h : ofList entries = .ok r) :
    Built r
  | ofOptions {options : List String} {c : Config} (h : Config.ofOptions options = .ok c) :
    Built c.redirection
  | ofJson {text : String} {c : Config} (h : Config.ofJson text = .ok c) : Built c.redirection

/-- However a redirection is built, all of its entries are between import paths. -/
theorem Redirection.Built.between {r : Redirection} (h : r.Built) : r.Between := by
  induction h with
  | empty => exact between_empty
  | insert _ h ih => exact ih.insert h
  | ofList h => exact between_of_ofList h
  | ofOptions h => exact Config.between_of_ofOptions h
  | ofJson h => exact Config.between_of_ofJson h

end ImportPlan
