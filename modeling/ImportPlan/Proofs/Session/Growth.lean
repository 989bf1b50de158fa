import ImportPlan.Proofs.Session.LocalNames

namespace ImportPlan.Session

/-!
# Blocks while a run goes on

A block may be resolved before the run is over, and code may be written under its aliases. What is
registered and confirmed afterwards has to leave that code valid.

* `History.HoldsBack.of_append` — what is held back in the end was held back all along.
* `hasDocument_after_append` — a document stays registered.
* `bindings_isPrefix_after_append` — bindings stay, in their places.
* `imports_only_grow` — a block that is resolved earlier is a part of one that is resolved later,
  with the same aliases and in the same order.
-/

variable {ρ : Renaming} {scope : Scope} {r : Redirection} {steps : List Step}

/-! ### What later steps leave as it is -/

/-- A path that is held back in the end was held back before: nothing that was required or confirmed
is ever taken back. -/
theorem History.HoldsBack.of_append {h h' : History} {path : String}
    (hheld : (h ++ h').HoldsBack r path) : h.HoldsBack r path := by
  obtain ⟨hrequired, l, hunconfirmed, hpath⟩ := hheld
  rw [required_append] at hrequired
  rw [confirmed_append, List.mem_append, not_or] at hunconfirmed
  exact ⟨fun id hid => hrequired id (List.mem_append_left _ hid), l, hunconfirmed.1, hpath⟩

/-- Later steps lead on from the state that earlier ones end in. -/
theorem leads_after_append (scope : Scope) (r : Redirection) (steps later : List Step) :
    Leads ((start scope r).after steps) (((start scope r).after steps).history later)
      ((start scope r).after (steps ++ later)) := by
  rw [after_append]
  exact leads_run (leads_start scope r steps).unconfirmed_nodup later

/-- A document stays registered. -/
theorem hasDocument_after_append (h : ((start scope r).after steps).hasDocument = true)
    (later : List Step) : ((start scope r).after (steps ++ later)).hasDocument = true :=
  (leads_after_append scope r steps later).hasDocument.2 (.inl h)

/-- The bindings that a run has made stay in their places. -/
theorem bindings_isPrefix_after_append (scope : Scope) (r : Redirection)
    (steps later : List Step) :
    ((start scope r).after steps).scope.bindings <+:
      ((start scope r).after (steps ++ later)).scope.bindings := by
  rw [(leads_after_append scope r steps later).scope]
  exact Scope.bindings_isPrefix_performAll _ _

/-! ### Imports -/

/-- If no id is bound twice in the end, the imports of a state are a part of those of every later
state. -/
theorem imports_sublist_after_append (later : List Step)
    (hids : ((start scope r).after (steps ++ later)).scope.ids.Nodup) :
    ((start scope r).after steps).block.imports.Sublist
      ((start scope r).after (steps ++ later)).block.imports := by
  rw [block_after_eq, block_after_eq]
  refine Block.imports_sublist_ofBindings
    (bindings_isPrefix_after_append scope r steps later).sublist hids ?_
  -- whatever the later history holds back, the earlier one does
  intro path hheld
  rw [decide_eq_true_iff, history_append] at hheld
  rw [decide_eq_true_iff]
  exact hheld.of_append

/-- A confirmation puts its library where it was registered, before imports that are there. -/
example :
    let features : Features := { Features.empty with genDeepEqual := true }
    let steps : List Step := [.document features (.empty "a.thrift"), .scope (.add "a" "b/a")]
    let s := start (.empty .numbered) .empty
    (s.after steps).block.imports = [("b/a", "")] ∧
      (s.after (steps ++ [.confirm "bytes"])).block.imports = [("bytes", ""), ("b/a", "")] := by
  decide

/-- **Blocks only grow.** Of two blocks that are resolved in one run, the earlier one is a part of
the later one: each of its paths is still imported, under the same alias, and in the same order
among the others. Later confirmations may put imports between them. -/
theorem imports_only_grow (hρ : ρ.Distinct) (r : Redirection) (seed : List Scope.Command)
    (steps later : List Step)
    (hdocument :
      ((start ((Scope.empty ρ).performAll seed).1 r).after steps).hasDocument = true) :
    let s := start ((Scope.empty ρ).performAll seed).1 r
    ∃ b b', (s.after steps).resolve.1 = .ok b ∧ (s.after (steps ++ later)).resolve.1 = .ok b' ∧
      b.imports.Sublist b'.imports ∧
      ∀ path, b.contains path = true → b'.aliasOf? path = b.aliasOf? path := by
  intro s
  have hids : (s.after (steps ++ later)).scope.ids.Nodup :=
    (unique_after hρ r seed (steps ++ later)).ids
  have hsublist : (s.after steps).block.imports.Sublist (s.after (steps ++ later)).block.imports :=
    imports_sublist_after_append later hids
  refine ⟨_, _, resolve_of_hasDocument hdocument,
    resolve_of_hasDocument (hasDocument_after_append hdocument later), hsublist, ?_⟩
  intro path hpath
  -- no path comes twice in the later block, so its look-ups find the earlier imports
  have hpaths : ((s.after (steps ++ later)).block.imports.map (·.1)).Nodup := by
    rw [block_after_eq]
    exact Block.nodup_paths_ofBindings _ hids
  exact Table.get?_eq_of_sublist hsublist hpaths hpath

/-- A block in which a confirmation, and a template's own package behind a refused reservation and a
second document, come later. -/
theorem imports_only_grow_of_late_confirmation :
    let r : Redirection := ⟨⟨[("bytes", "example.com/buffer")]⟩⟩
    let features : Features := { Features.empty with genDeepEqual := true }
    let d : Document := { Document.empty "a.thrift" with structs := [⟨"Point", []⟩] }
    let seed : List Scope.Command := [.add "fmt" "local"]
    let steps : List Step := [.document features d, .confirm "strings", .scope (.add "a" "b/a")]
    let later : List Step := [.scope (.reserve "fmt" "example.com/fmt"), .document features d,
      .confirm "bytes", .scope (.add "a" "c/a")]
    let s := start ((Scope.empty .numbered).performAll seed).1 r
    Renaming.numbered.Distinct ∧ (s.after steps).hasDocument = true ∧
      ∃ b b', (s.after steps).resolve.1 = .ok b ∧
        (s.after (steps ++ later)).resolve.1 = .ok b' ∧ b.imports.Sublist b'.imports ∧
        ∀ path, b.contains path = true → b'.aliasOf? path = b.aliasOf? path := by
  intro r features d seed steps later s
  have hdocument : (s.after steps).hasDocument = true := by decide
  exact ⟨Renaming.numbered_distinct, hdocument,
    imports_only_grow Renaming.numbered_distinct r seed steps later hdocument⟩

end ImportPlan.Session
