import Mathlib

namespace ImportPlan

/-!
# First and last

Where later values override earlier ones the last one counts, and where a traversal stops the first
one does.

* `IsLast`, `IsFirst` — the last and the first one in a list with a property.
* `exists_isLast`, `IsLast.unique` — if one has the property, there is just one last one.
* `isLast_concat_iff` — the last one after another one has come.
-/

variable {α β : Type} {P : α → Prop} {l : List α}

/-- The last one of the list with this property. -/
def IsLast (P : α → Prop) (l : List α) (a : α) : Prop :=
  ∃ before after, l = before ++ a :: after ∧ P a ∧ ∀ x ∈ after, ¬ P x

/-- The first one of the list with this property. -/
def IsFirst (P : α → Prop) (l : List α) (a : α) : Prop :=
  ∃ before after, l = before ++ a :: after ∧ P a ∧ ∀ x ∈ before, ¬ P x

/-- An empty list has no last one. -/
theorem not_isLast_nil {a : α} : ¬ IsLast P [] a := by
  rintro ⟨before, after, heq, -⟩
  simp at heq

/-- If one has the property, there is a last one. -/
theorem exists_isLast (h : ∃ a ∈ l, P a) : ∃ a, IsLast P l a := by
  induction l with
  | nil =>
    obtain ⟨a, ha, -⟩ := h
    exact absurd ha List.not_mem_nil
  | cons b l ih =>
    by_cases hrest : ∃ a ∈ l, P a
    · obtain ⟨a, before, after, rfl, ha, hafter⟩ := ih hrest
      exact ⟨a, b :: before, after, rfl, ha, hafter⟩
    · -- what comes later does not have it, so that the first one is the last one, too
      have hnone : ∀ x ∈ l, ¬ P x := fun x hx hP => hrest ⟨x, hx, hP⟩
      obtain ⟨a, ha, hP⟩ := h
      rcases List.mem_cons.1 ha with rfl | hmem
      · exact ⟨a, [], l, rfl, hP, hnone⟩
      · exact absurd hP (hnone a hmem)

theorem IsLast.mem {a : α} (h : IsLast P l a) : a ∈ l := by
  obtain ⟨before, after, rfl, -⟩ := h
  simp

theorem IsLast.prop {a : α} (h : IsLast P l a) : P a := by
  obtain ⟨before, after, -, ha, -⟩ := h
  exact ha

/-- There is no other last one. -/
theorem IsLast.unique {a b : α} (ha : IsLast P l a) (hb : IsLast P l b) : a = b := by
  obtain ⟨before, after, rfl, hPa, hafter⟩ := ha
  obtain ⟨before', after', heq, hPb, hafter'⟩ := hb
  rcases List.append_eq_append_iff.1 heq with ⟨between, -, hrest⟩ | ⟨between, -, hrest⟩
  · cases between with
    | nil => exact (List.cons.inj hrest).1
    | cons c between =>
      -- the second one would come behind the first one
      have hmem : b ∈ after := by
        rw [(List.cons.inj hrest).2]
        simp
      exact absurd hPb (hafter b hmem)
  · cases between with
    | nil => exact (List.cons.inj hrest).1.symm
    | cons c between =>
      have hmem : a ∈ after' := by
        rw [(List.cons.inj hrest).2]
        simp
      exact absurd hPa (hafter' a hmem)

/-- Only the members of a list count for the last one. -/
theorem IsLast.congr {Q : α → Prop} {a : α} (h : IsLast P l a) (hiff : ∀ x ∈ l, P x ↔ Q x) :
    IsLast Q l a := by
  obtain ⟨before, after, rfl, ha, hafter⟩ := h
  refine ⟨before, after, rfl, (hiff a (by simp)).1 ha, fun x hx hQ => ?_⟩
  exact hafter x hx ((hiff x (by simp [hx])).2 hQ)

/-- What is read of a list comes last from the last one of which anything is read. -/
theorem getLast?_filterMap_of_isLast {f : α → Option β} {a : α}
    (h : IsLast (fun a => (f a).isSome) l a) : (l.filterMap f).getLast? = f a := by
  obtain ⟨before, after, rfl, ha, hafter⟩ := h
  obtain ⟨b, hb⟩ := Option.isSome_iff_exists.1 ha
  have hnone : after.filterMap f = [] :=
    List.filterMap_eq_nil_iff.2 fun x hx => Option.not_isSome_iff_eq_none.1 (hafter x hx)
  rw [List.filterMap_append, List.filterMap_cons_some hb, hnone, List.getLast?_concat, hb]

/-- The last one is the one that has come at the end, if that has the property. -/
theorem isLast_concat_iff {a b : α} :
    IsLast P (l ++ [b]) a ↔ P b ∧ a = b ∨ ¬ P b ∧ IsLast P l a := by
  constructor
  · rintro ⟨before, after, heq, ha, hafter⟩
    -- either the last one stands at the end itself, or the end is among those behind it
    rcases List.eq_nil_or_concat after with rfl | ⟨after, c, rfl⟩
    · obtain ⟨-, hlast⟩ := List.append_inj' heq rfl
      cases hlast
      exact .inl ⟨ha, rfl⟩
    · rw [List.concat_eq_append, ← List.cons_append, ← List.append_assoc] at heq
      obtain ⟨rfl, hlast⟩ := List.append_inj' heq rfl
      cases hlast
      exact .inr ⟨hafter b (by simp), before, after, rfl, ha, fun x hx => hafter x (by simp [hx])⟩
  · rintro (⟨hb, rfl⟩ | ⟨hb, before, after, rfl, ha, hafter⟩)
    · exact ⟨l, [], rfl, hb, nofun⟩
    · refine ⟨before, after ++ [b], by simp, ha, fun x hx => ?_⟩
      rcases List.mem_append.1 hx with hmem | hmem
      · exact hafter x hmem
      · rwa [List.mem_singleton.1 hmem]

end ImportPlan
