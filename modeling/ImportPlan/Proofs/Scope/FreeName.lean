import Mathlib
import ImportPlan.Scope.Basic

namespace ImportPlan

/-!
# Free names

A scope looks for a free name among one candidate more than it has bindings. This file shows that
the search succeeds for every renaming whose candidates differ from each other:

* `Renaming.DistinctAt` — no two renamed candidates for this name are equal; `Renaming.Distinct`
  says so of all names, and holds of `numbered` and of `underscored`.
* `Scope.names`, `Scope.ids` — the two sides of the bindings.
* `Scope.freeName_eq` — the free name is the name asked for, or one of its candidates.
* `Scope.freeName_not_mem_names` — no id owns the free name, by counting candidates against
  bindings.
-/

/-! ### Renamings with distinct candidates -/

/-- No two renamed candidates for a name are equal. -/
def Renaming.Distinct (ρ : Renaming) : Prop :=
  ∀ name m n, 2 ≤ m → 2 ≤ n → ρ name m = ρ name n → m = n

/-- No two renamed candidates for this name are equal. -/
def Renaming.DistinctAt (ρ : Renaming) (name : String) : Prop :=
  ∀ m n, 2 ≤ m → 2 ≤ n → ρ name m = ρ name n → m = n

theorem Renaming.numbered_distinct : Renaming.numbered.Distinct := by
  intro name m n hm hn h
  -- the suffix is one less than the number, and decimal texts of different numbers differ
  have hrepr : (m - 1).repr = (n - 1).repr := (String.append_right_inj name).1 h
  have hpred : m - 1 = n - 1 := Nat.repr_injective hrepr
  omega

theorem Renaming.underscored_distinct : Renaming.underscored.Distinct := by
  intro name m n _ _ h
  exact Nat.repr_injective ((String.append_right_inj (name ++ "_")).1 h)

namespace Scope

/-! ### The two sides of the bindings -/

/-- The names that are owned, in the order of their registration. -/
def names (s : Scope) : List String := s.bindings.map (·.name)

/-- The ids that own a name, in the order of their registration. -/
def ids (s : Scope) : List String := s.bindings.map (·.id)

@[simp] theorem names_empty (ρ : Renaming) : (empty ρ).names = [] := rfl

@[simp] theorem ids_empty (ρ : Renaming) : (empty ρ).ids = [] := rfl

@[simp] theorem names_bind (s : Scope) (name id : String) :
    (s.bind name id).names = s.names ++ [name] := by
  simp [names]

@[simp] theorem ids_bind (s : Scope) (name id : String) :
    (s.bind name id).ids = s.ids ++ [id] := by
  simp [ids]

theorem idOf?_eq_none_iff {s : Scope} {name : String} : s.idOf? name = none ↔ name ∉ s.names := by
  simp [idOf?, names]

theorem nameOf?_eq_none_iff {s : Scope} {id : String} : s.nameOf? id = none ↔ id ∉ s.ids := by
  simp [nameOf?, ids]

theorem isFree_iff {s : Scope} {name : String} : s.isFree name = true ↔ name ∉ s.names := by
  rw [isFree, Option.isNone_iff_eq_none, idOf?_eq_none_iff]

/-- Where the id is new, a binding gives it its name and leaves all other ids alone. -/
theorem nameOf?_bind_of_not_mem {s : Scope} {id : String} (h : id ∉ s.ids) (name i : String) :
    (s.bind name id).nameOf? i = if i = id then some name else s.nameOf? i := by
  rw [nameOf?_bind]
  by_cases hi : i = id
  · simp [hi, nameOf?_eq_none_iff.2 h]
  · rw [if_neg hi, if_neg (Ne.symm hi), Option.or_none]

/-- Where the name is new, a binding gives it its id and leaves all other names alone. -/
theorem idOf?_bind_of_not_mem {s : Scope} {name : String} (h : name ∉ s.names) (id n : String) :
    (s.bind name id).idOf? n = if n = name then some id else s.idOf? n := by
  rw [idOf?_bind]
  by_cases hn : n = name
  · simp [hn, idOf?_eq_none_iff.2 h]
  · rw [if_neg hn, if_neg (Ne.symm hn), Option.or_none]

/-! ### The search for a free name -/

/-- A name that no id owns is its own free name. -/
theorem freeName_of_not_mem {s : Scope} {name : String} (h : name ∉ s.names) :
    s.freeName name = name := by
  rw [freeName, if_pos (isFree_iff.2 h)]

/-- The free name is the name itself or one of its candidates. -/
theorem freeName_eq (s : Scope) (name : String) :
    s.freeName name = name ∨ ∃ n, 2 ≤ n ∧ s.freeName name = s.rename name n := by
  rw [freeName]
  split
  · exact .inl rfl
  · cases hfind : (s.candidates name).find? s.isFree with
    | none => exact .inl rfl
    | some c =>
      have hmem : c ∈ s.candidates name := List.mem_of_find?_eq_some hfind
      obtain ⟨k, -, rfl⟩ := List.mem_map.1 hmem
      exact .inr ⟨k + 2, by omega, rfl⟩

/-- Distinct candidates make a list without repetition, one longer than the bindings. -/
theorem candidates_nodup {s : Scope} {name : String} (hρ : s.rename.DistinctAt name) :
    (s.candidates name).Nodup := by
  refine List.Nodup.map_on (fun m _ n _ h => ?_) List.nodup_range
  have heq := hρ (m + 2) (n + 2) (by omega) (by omega) h
  omega

/-- Not all candidates are owned: there are more of them than names. -/
theorem exists_free_candidate {s : Scope} {name : String} (hρ : s.rename.DistinctAt name) :
    ∃ c ∈ s.candidates name, c ∉ s.names := by
  -- otherwise a list without repetition would lie in a shorter one
  by_contra hall
  push Not at hall
  have hlen := (candidates_nodup hρ).length_le_of_subset hall
  simp only [candidates, names, List.length_map, List.length_range, size] at hlen
  omega

/-- **No id owns the free name**, if the candidates differ from each other. -/
theorem freeName_not_mem_names {s : Scope} {name : String} (hρ : s.rename.DistinctAt name) :
    s.freeName name ∉ s.names := by
  by_cases hname : name ∈ s.names
  · -- some candidate is free, so the search ends with a free one
    obtain ⟨c, hc, hfree⟩ := exists_free_candidate hρ
    have hsome : ((s.candidates name).find? s.isFree).isSome :=
      List.find?_isSome.2 ⟨c, hc, isFree_iff.2 hfree⟩
    obtain ⟨found, hfound⟩ := Option.isSome_iff_exists.1 hsome
    have hnot : ¬ s.isFree name = true := fun h => isFree_iff.1 h hname
    rw [freeName, if_neg hnot, hfound]
    exact isFree_iff.1 (List.find?_some hfound)
  · rwa [freeName_of_not_mem hname]

end Scope

end ImportPlan
