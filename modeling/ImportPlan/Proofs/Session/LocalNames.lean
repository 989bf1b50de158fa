import ImportPlan.Proofs.Path.LocalName
import ImportPlan.Proofs.Session.Suppression

namespace ImportPlan

/-!
# Blocks against scopes

The block of a session lists the bindings of its scope, and nothing is lost on the way from a
binding to an import.

* `Scope.Command.AsksLocalName` — the name that a command asks for can be read off an import.
* `Rules.isLocalName_of_mem_registrations` — documents ask for local names.
* `Session.scope_after_eq` — a seed and a run act on a scope as one history of commands.
* `Session.isLocalName_after`, `Session.unique_after` — the names that a run leaves in the scope are
  local names, and no name and no id is bound twice.
* `Session.imports_read_back` — the imports, each read under the name that it is used by, are the
  bindings that are not held back, in their order; so no two imports are used under one name.
-/

/-! ### Names that are asked for -/

/-- The command asks for a local name, if it asks for a name at all. -/
def Scope.Command.AsksLocalName (c : Scope.Command) : Prop :=
  ∀ e ∈ c.request?, Path.IsLocalName e.1

instance (c : Scope.Command) : Decidable c.AsksLocalName :=
  inferInstanceAs (Decidable (∀ e ∈ c.request?, Path.IsLocalName e.1))

/-- The id that a command is about has no say in the name. -/
theorem Scope.Command.AsksLocalName.mapId {c : Scope.Command} (h : c.AsksLocalName)
    (f : String → String) : (c.mapId f).AsksLocalName := by
  intro e he
  cases c with
  | add name id => cases he; exact h (name, id) rfl
  | get id => cases he
  | reserve name id => cases he; exact h (name, id) rfl
  | demand name id => cases he; exact h (name, id) rfl
  | list limit => cases he

namespace Rules

/-- Documents ask for local names. -/
theorem isLocalName_of_mem_registrations {features : Features} {d : Document} {g : Registration}
    (h : g ∈ registrations features d) : Path.IsLocalName g.name := by
  have hall : ∀ g ∈ Registration.all, Path.IsLocalName g.name := by decide
  exact hall g (registrations_subset features d h)

end Rules

namespace Session

/-! ### The scope after a run -/

/-- The steps of a history are those of its run. -/
theorem mem_of_mem_history {s : Session} {steps : List Step} {e : Step × Reply}
    (h : e ∈ s.history steps) : e.1 ∈ steps :=
  (List.of_mem_zip h).1

variable {ρ : Renaming} {r : Redirection} {seed : List Scope.Command} {steps : List Step}

/-- A seed and a run act on a scope as one history of commands. -/
theorem scope_after_eq (s : Scope) (r : Redirection) (seed : List Scope.Command)
    (steps : List Step) :
    ((start (s.performAll seed).1 r).after steps).scope =
      (s.performAll (seed ++ ((start (s.performAll seed).1 r).history steps).commands r)).1 := by
  rw [Scope.performAll_append]
  exact (leads_start (s.performAll seed).1 r steps).scope

/-- The commands of a run ask for local names if its steps do. -/
theorem asksLocalName_of_mem_commands {s : Session}
    (hsteps : ∀ c, .scope c ∈ steps → c.AsksLocalName) {c : Scope.Command}
    (hc : c ∈ (s.history steps).commands r) : c.AsksLocalName := by
  obtain ⟨⟨p, reply⟩, he, hc⟩ := List.mem_flatMap.1 hc
  have hp : p ∈ steps := mem_of_mem_history he
  -- only scope steps and accepted documents give commands
  cases p with
  | scope c' =>
    rw [List.mem_singleton.1 hc]
    exact (hsteps c' hp).mapId r.resolve
  | document features d =>
    cases reply with
    | registered =>
      obtain ⟨g, hg, rfl⟩ := List.mem_map.1 hc
      intro e hrequest
      cases hrequest
      exact Rules.isLocalName_of_mem_registrations hg
    | _ => exact absurd hc List.not_mem_nil
  | _ => exact absurd hc List.not_mem_nil

/-- All names in the scope after a run are local names, if seed and steps ask for local names. -/
theorem isLocalName_after (hρ : ρ.KeepsLocalNames) (hseed : ∀ c ∈ seed, c.AsksLocalName)
    (hsteps : ∀ c, .scope c ∈ steps → c.AsksLocalName) :
    ∀ name ∈ ((start ((Scope.empty ρ).performAll seed).1 r).after steps).scope.names,
      Path.IsLocalName name := by
  rw [scope_after_eq]
  refine Scope.forall_names_performAll (P := Path.IsLocalName) (s := .empty ρ) hρ (by simp) ?_
  intro c hc name id hrequest
  rcases List.mem_append.1 hc with hmem | hmem
  · exact hseed c hmem _ hrequest
  · exact asksLocalName_of_mem_commands hsteps hmem _ hrequest

/-- No name and no id is bound twice after a run. -/
theorem unique_after (hρ : ρ.Distinct) (r : Redirection) (seed : List Scope.Command)
    (steps : List Step) :
    ((start ((Scope.empty ρ).performAll seed).1 r).after steps).scope.Unique := by
  rw [scope_after_eq]
  exact (Scope.Unique.empty ρ).performAll hρ _

/-! ### Imports and bindings -/

/-- Reading the imports that are made of bindings with local names gives the bindings back. -/
theorem map_usedName_shownAlias {bindings : List Binding}
    (h : ∀ x ∈ bindings, Path.IsLocalName x.name) :
    (bindings.map fun x => (x.id, Path.shownAlias x.name x.id)).map
      (fun e => Binding.mk (Path.usedName e.2 e.1) e.1) = bindings := by
  rw [List.map_map]
  conv_rhs => rw [← List.map_id bindings]
  refine List.map_congr_left fun x hx => ?_
  show Binding.mk (Path.usedName (Path.shownAlias x.name x.id) x.id) x.id = x
  rw [Path.usedName_shownAlias (h x hx)]

/-- **The block is a faithful image of the scope.** Its imports are the bindings that are not held
back, in the order of their registration; read under the name that it is used by, each import gives
back its binding; and no two imports are used under one name. -/
theorem imports_read_back (hρ : ρ = .numbered ∨ ρ = .underscored)
    (hseed : ∀ c ∈ seed, c.AsksLocalName) (hsteps : ∀ c, .scope c ∈ steps → c.AsksLocalName)
    (hdocument :
      ((start ((Scope.empty ρ).performAll seed).1 r).after steps).hasDocument = true) :
    let s := start ((Scope.empty ρ).performAll seed).1 r
    let shown := (s.after steps).scope.bindings.filter
      fun x => ¬ (s.history steps).HoldsBack r x.id
    ∃ b, (s.after steps).resolve.1 = .ok b ∧
      b.imports = shown.map (fun x => (x.id, Path.shownAlias x.name x.id)) ∧
      b.imports.map (fun e => Binding.mk (Path.usedName e.2 e.1) e.1) = shown ∧
      (∀ e ∈ b.imports, (s.after steps).scope.nameOf? e.1 = some (Path.usedName e.2 e.1)) ∧
      (b.imports.map fun e => Path.usedName e.2 e.1).Nodup := by
  intro s shown
  have hdistinct : ρ.Distinct := by
    rcases hρ with rfl | rfl
    · exact Renaming.numbered_distinct
    · exact Renaming.underscored_distinct
  have hkeeps : ρ.KeepsLocalNames := by
    rcases hρ with rfl | rfl
    · exact Renaming.numbered_keepsLocalNames
    · exact Renaming.underscored_keepsLocalNames
  have hunique : (s.after steps).scope.Unique := unique_after hdistinct r seed steps
  -- no id is bound twice, so no import overwrites another one
  have himports : (s.after steps).block.imports =
      shown.map fun x => (x.id, Path.shownAlias x.name x.id) := by
    rw [block_after_eq, Block.imports_ofBindings _ hunique.ids]
    simp only [shown, decide_not]
    rfl
  have hlocal : ∀ x ∈ shown, Path.IsLocalName x.name := fun x hx =>
    isLocalName_after hkeeps hseed hsteps x.name
      (List.mem_map_of_mem (List.mem_of_mem_filter hx))
  -- names are read back from aliases, which only works for local names
  have hread : (s.after steps).block.imports.map
      (fun e => Binding.mk (Path.usedName e.2 e.1) e.1) = shown := by
    rw [himports]
    exact map_usedName_shownAlias hlocal
  refine ⟨_, resolve_of_hasDocument hdocument, himports, hread, ?_, ?_⟩
  · intro e he
    rw [hunique.nameOf?_eq_some_iff]
    have hmem : Binding.mk (Path.usedName e.2 e.1) e.1 ∈ shown := by
      rw [← hread]
      exact List.mem_map_of_mem he
    exact List.mem_of_mem_filter hmem
  · -- the names used are those of the bindings shown, and no name is bound twice
    have hnames : (s.after steps).block.imports.map (fun e => Path.usedName e.2 e.1) =
        shown.map (·.name) := by
      rw [← hread, List.map_map]
      rfl
    rw [hnames]
    exact hunique.names.sublist (List.filter_sublist.map _)

/-- A block of a scope in which `fmt` belongs to the file itself, with the runtime redirected to a
fork and a library confirmed. -/
theorem imports_read_back_of_clash :
    let r : Redirection :=
      ⟨⟨[("github.com/apache/thrift/lib/go/thrift", "example.com/fork/thrift")]⟩⟩
    let features : Features := { Features.empty with genDeepEqual := true }
    let d : Document := { Document.empty "a.thrift" with structs := [⟨"Point", []⟩] }
    let seed : List Scope.Command := [.add "fmt" "local"]
    let steps : List Step := [.document features d,
      .scope (.reserve "strings" "example.com/strings"), .confirm "bytes"]
    let s := start ((Scope.empty .numbered).performAll seed).1 r
    let shown := (s.after steps).scope.bindings.filter
      fun x => ¬ (s.history steps).HoldsBack r x.id
    (∀ c ∈ seed, c.AsksLocalName) ∧ (∀ c, .scope c ∈ steps → c.AsksLocalName) ∧
      (s.after steps).hasDocument = true ∧
      ∃ b, (s.after steps).resolve.1 = .ok b ∧
        b.imports = shown.map (fun x => (x.id, Path.shownAlias x.name x.id)) ∧
        b.imports.map (fun e => Binding.mk (Path.usedName e.2 e.1) e.1) = shown ∧
        (∀ e ∈ b.imports, (s.after steps).scope.nameOf? e.1 = some (Path.usedName e.2 e.1)) ∧
        (b.imports.map fun e => Path.usedName e.2 e.1).Nodup := by
  intro r features d seed steps s shown
  have hseed : ∀ c ∈ seed, c.AsksLocalName := by decide
  have hsteps : ∀ c, .scope c ∈ steps → c.AsksLocalName := by
    intro c hc
    have hreserve : c = .reserve "strings" "example.com/strings" := by simpa [steps] using hc
    rw [hreserve]
    decide
  have hdocument : (s.after steps).hasDocument = true := by decide
  exact ⟨hseed, hsteps, hdocument, imports_read_back (.inl rfl) hseed hsteps hdocument⟩

end Session

end ImportPlan
