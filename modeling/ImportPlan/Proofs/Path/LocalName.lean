import Mathlib
import ImportPlan.Path
import ImportPlan.Scope.Basic

namespace ImportPlan

/-!
# Local names of imports

An import is used under its alias, or, if it has none, under the last segment of its path. Aliases
that say no more than the path are not written; this file shows that nothing is lost with them.

* `Path.IsLocalName` — a name that can be read off an import: not empty and without a slash.
* `Path.usedName` — the name under which an import is used.
* `Path.usedName_shownAlias` — the name used is the name that was bound.
* `Renaming.KeepsLocalNames` — renamed candidates for local names are local names; it holds of
  `numbered` and of `underscored`.
-/

namespace Path

/-- A name that can be read off an import: it is not empty and has no slash. -/
def IsLocalName (name : String) : Prop := name ≠ "" ∧ '/' ∉ name.toList

instance (name : String) : Decidable (IsLocalName name) :=
  inferInstanceAs (Decidable (_ ∧ _))

/-- The name under which an import is used: its alias, or the last segment of its path. -/
def usedName (shown path : String) : String := if shown = "" then lastSegment path else shown

/-- A text without a slash is its own last segment. -/
theorem lastSegment_of_not_mem {path : String} (h : '/' ∉ path.toList) :
    lastSegment path = path := by
  have hall : path.toList.reverse.takeWhile (· != '/') = path.toList.reverse := by
    refine List.takeWhile_eq_self_iff.2 fun c hc => ?_
    have hne : c ≠ '/' := fun heq => h (heq ▸ List.mem_reverse.1 hc)
    simpa using hne
  rw [lastSegment, hall, List.reverse_reverse, String.ofList_toList]

/-- **Leaving out an alias loses nothing**: the name used is the name that was bound. -/
theorem usedName_shownAlias {name : String} (h : IsLocalName name) (path : String) :
    usedName (shownAlias name path) path = name := by
  rw [usedName, shownAlias]
  by_cases hredundant : name = path ∨ name = lastSegment path
  · rw [if_pos hredundant, if_pos rfl]
    rcases hredundant with rfl | hsegment
    · exact lastSegment_of_not_mem h.2
    · exact hsegment.symm
  · rw [if_neg hredundant, if_neg h.1]

end Path

namespace Renaming

/-- Renamed candidates for local names are local names. -/
def KeepsLocalNames (ρ : Renaming) : Prop :=
  ∀ name n, Path.IsLocalName name → Path.IsLocalName (ρ name n)

/-- A decimal text holds digits only. -/
theorem not_mem_toString {c : Char} (hc : c.isDigit = false) (n : Nat) :
    c ∉ (toString n).toList := by
  intro hmem
  rw [Nat.toString_eq_ofList_toDigits, String.toList_ofList] at hmem
  have hdigit : c.isDigit = true := Nat.isDigit_of_mem_toDigits (by decide) (by decide) hmem
  rw [hc] at hdigit
  exact absurd hdigit (by decide)

theorem slash_not_mem_toString (n : Nat) : '/' ∉ (toString n).toList :=
  not_mem_toString (by decide) n

/-- What is put behind a local name leaves it a local name, if it has no slash. -/
theorem isLocalName_append {name suffix : String} (h : Path.IsLocalName name)
    (hsuffix : '/' ∉ suffix.toList) : Path.IsLocalName (name ++ suffix) := by
  refine ⟨fun hempty => h.1 (String.append_eq_empty_iff.1 hempty).1, ?_⟩
  rw [String.toList_append, List.mem_append, not_or]
  exact ⟨h.2, hsuffix⟩

theorem numbered_keepsLocalNames : numbered.KeepsLocalNames :=
  fun _ n h => isLocalName_append h (slash_not_mem_toString (n - 1))

theorem underscored_keepsLocalNames : underscored.KeepsLocalNames :=
  fun _ n h => isLocalName_append (isLocalName_append h (by decide)) (slash_not_mem_toString n)

end Renaming

end ImportPlan
