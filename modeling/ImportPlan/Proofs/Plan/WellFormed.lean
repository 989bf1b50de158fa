import ImportPlan.Proofs.Path.Verbatim
import ImportPlan.Proofs.Plan.Run
import ImportPlan.Proofs.Redirection.Built
import ImportPlan.Proofs.Session.LocalNames
import ImportPlan.Proofs.Session.Registration
import ImportPlan.Proofs.Session.Timing

namespace ImportPlan

/-!
# Planned blocks

The block of a file can be written down as it is, if only its document has registered imports.

* `Registration.names` — the names that documents ask for.
* `Block.WellFormed` — valid paths, each written verbatim; no aliases but those names, and no two
  imports under one name.
* `Block.wellFormed_ofBindings` — what a scope needs for such a block.
* `Session.exists_rule_of_mem_bindings` — the scope of a file whose rendering registers nothing.
* `Config.plan_wellFormed` — every file gets its block, and a well-formed one if its rendering only
  confirms libraries.
-/

/-- The names that documents ask for. -/
def Registration.names : List String := all.map name

example : Registration.names =
    ["fmt", "context", "driver", "sql", "thrift", "unknown", "strings", "bytes", "reflect"] := by
  decide

/-- Documents ask for local names. -/
theorem Registration.isLocalName_of_mem_names {name : String} (h : name ∈ names) :
    Path.IsLocalName name := by
  have hall : ∀ name ∈ names, Path.IsLocalName name := by decide
  exact hall name h

/-- What documents import are import paths. -/
theorem Registration.isValid_id : ∀ g ∈ all, Path.isValid g.id = true := by
  decide +kernel

/-- First entries are entries. -/
theorem firstOfEach_sublist {α β : Type} [DecidableEq β] (key : α → β) (l : List α) :
    (firstOfEach key l).Sublist l := by
  induction l with
  | nil => exact List.Sublist.refl []
  | cons a l ih =>
    rw [firstOfEach_cons]
    exact (List.filter_sublist.trans ih).cons_cons a

/-! ### Well-formed blocks -/

namespace Block

/-- The line of an import with its path between two quotes, as it is. -/
def verbatimLine (e : String × String) : String :=
  "\t" ++ (if e.2 = "" then "" else e.2 ++ " ") ++ ("\"" ++ e.1 ++ "\"") ++ "\n"

/-- A block that can be written down as it is. -/
structure WellFormed (b : Block) : Prop where
  isValid : ∀ e ∈ b.imports, Path.isValid e.1 = true
  /-- An alias is one of the names that documents ask for. -/
  mem_names : ∀ e ∈ b.imports, e.2 = "" ∨ e.2 ∈ Registration.names
  /-- No two imports are used under one name. -/
  nodup_usedNames : (b.imports.map fun e => Path.usedName e.2 e.1).Nodup
  /-- Sorted by path, every import is written with its path verbatim. -/
  render_eq : b.render =
    if b.isEmpty then "" else "import (\n" ++ String.join (b.sorted.map verbatimLine) ++ ")\n"

/-- A block of valid paths is written verbatim. -/
theorem render_of_isValid {b : Block} (h : ∀ e ∈ b.imports, Path.isValid e.1 = true) :
    b.render = if b.isEmpty then ""
      else "import (\n" ++ String.join (b.sorted.map verbatimLine) ++ ")\n" := by
  have hlines : (b.sorted.map fun e => renderImport e.1 e.2) = b.sorted.map verbatimLine := by
    refine List.map_congr_left fun e he => ?_
    have hmem : e ∈ b.imports := List.mem_mergeSort.1 he
    rw [renderImport, Path.quote_of_isValid (h e hmem), verbatimLine]
  rw [render, hlines]

/-- Bindings of valid ids under names that documents ask for make a well-formed block, if no name
and no id is bound twice. -/
theorem wellFormed_ofBindings (isHeldBack : String → Bool) {s : Scope} (hs : s.Unique)
    (hvalid : ∀ x ∈ s.bindings, Path.isValid x.id = true)
    (hnames : ∀ x ∈ s.bindings, x.name ∈ Registration.names) :
    (ofBindings isHeldBack s.bindings).WellFormed := by
  let shown := s.bindings.filter fun x => !isHeldBack x.id
  have himports : (ofBindings isHeldBack s.bindings).imports =
      shown.map fun x => (x.id, Path.shownAlias x.name x.id) :=
    imports_ofBindings isHeldBack hs.ids
  have hshown : ∀ x ∈ shown, x ∈ s.bindings := fun x hx => List.mem_of_mem_filter hx
  have hpaths : ∀ e ∈ (ofBindings isHeldBack s.bindings).imports, Path.isValid e.1 = true := by
    intro e he
    rw [himports] at he
    obtain ⟨x, hx, rfl⟩ := List.mem_map.1 he
    exact hvalid x (hshown x hx)
  refine ⟨hpaths, ?_, ?_, render_of_isValid hpaths⟩
  · intro e he
    rw [himports] at he
    obtain ⟨x, hx, rfl⟩ := List.mem_map.1 he
    show Path.shownAlias x.name x.id = "" ∨ Path.shownAlias x.name x.id ∈ Registration.names
    rw [Path.shownAlias]
    split
    · exact .inl rfl
    · exact .inr (hnames x (hshown x hx))
  · -- read under the names that they are used by, the imports are the bindings again
    have hlocal : ∀ x ∈ shown, Path.IsLocalName x.name := fun x hx =>
      Registration.isLocalName_of_mem_names (hnames x (hshown x hx))
    have hread := Session.map_usedName_shownAlias hlocal
    have hused : ((ofBindings isHeldBack s.bindings).imports.map
        fun e => Path.usedName e.2 e.1) = shown.map (·.name) := by
      have hname := congrArg (List.map Binding.name) hread
      rw [List.map_map] at hname
      rw [himports]
      exact hname
    rw [hused]
    exact hs.names.sublist (List.filter_sublist.map _)

end Block

/-! ### Files whose rendering registers nothing -/

namespace Session

variable {ρ : Renaming} {r : Redirection} {features : Features} {d : Document} {steps : List Step}

/-- Steps that register nothing leave the scope as the document has left it. -/
theorem scope_after_of_registering (scope : Scope)
    (hsteps : ∀ p ∈ steps, p.isRegistration = false) :
    ((start scope r).after (.document features d :: steps)).scope =
      ((start scope r).after (registering features d [] [])).scope := by
  have hnone : steps.filter (·.isRegistration) = [] := by
    rw [List.filter_eq_nil_iff]
    intro p hp
    simp [hsteps p hp]
  have hfilter : (Step.document features d :: steps).filter (·.isRegistration) =
      registering features d [] [] := by
    rw [List.filter_cons_of_pos rfl, hnone]
    rfl
  rw [← hfilter]
  exact ((Alike.refl (start scope r)).run (.document features d :: steps)).2.scope

/-- So the scope then holds bindings of rules only, each under its own name and redirected once. -/
theorem exists_rule_of_mem_bindings (hsteps : ∀ p ∈ steps, p.isRegistration = false) {x : Binding}
    (hx : x ∈ ((start (.empty ρ) r).after (.document features d :: steps)).scope.bindings) :
    ∃ g ∈ Registration.all, x = ⟨g.name, r.resolve g.id⟩ := by
  rw [scope_after_of_registering (.empty ρ) hsteps, bindings_registering] at hx
  have hrule := (firstOfEach_sublist _ _).subset hx
  obtain ⟨g, hg, rfl⟩ := List.mem_map.1 hrule
  exact ⟨g, Rules.registrations_subset features d (Rules.mem_ruleTable_iff.1 hg), rfl⟩

end Session

namespace Config

/-- **Every file gets a block, and it can be written down as it is.** However the redirection of the
settings was built, planning succeeds for every document and every rendering. If the rendering only
confirms libraries, and asks for names and blocks, all paths of the block are import paths and
written verbatim, the aliases are among the names that documents ask for, and no two imports are
used under one name. -/
theorem plan_wellFormed {c : Config} (hc : c.redirection.Built) (d : Document) :
    (∀ rendering, ∃ b, (c.plan rendering d).block = .ok b) ∧
      ∀ rendering : Rendering, (∀ p ∈ rendering d, p.isRegistration = false) →
        ∃ b, (c.plan rendering d).block = .ok b ∧ b.WellFormed := by
  have hblock : ∀ rendering, (c.plan rendering d).block =
      .ok (c.session.after (c.stepsFor rendering d)).block := by
    intro rendering
    rw [plan_eq]
  refine ⟨fun rendering => ⟨_, hblock rendering⟩, fun rendering hrendering => ?_⟩
  let s := c.session.after (c.stepsFor rendering d)
  have hunique : s.scope.Unique :=
    Session.unique_after Renaming.numbered_distinct c.redirection [] (c.stepsFor rendering d)
  have hrule : ∀ x ∈ s.scope.bindings,
      ∃ g ∈ Registration.all, x = ⟨g.name, c.redirection.resolve g.id⟩ := fun x hx =>
    Session.exists_rule_of_mem_bindings hrendering hx
  refine ⟨s.block, hblock rendering, Block.wellFormed_ofBindings s.isHeldBack hunique ?_ ?_⟩
  · intro x hx
    obtain ⟨g, hg, rfl⟩ := hrule x hx
    exact hc.between.isValid_resolve (Registration.isValid_id g hg)
  · intro x hx
    obtain ⟨g, hg, rfl⟩ := hrule x hx
    exact List.mem_map_of_mem hg

/-- A file whose redirection swaps two libraries and sends the runtime to the path of one of
them. -/
theorem plan_wellFormed_of_swap :
    let r : Redirection := ⟨⟨[("strings", "bytes"), ("bytes", "strings"),
      (Package.thrift.path, "strings")]⟩⟩
    let c : Config := ⟨{ Features.empty with genDeepEqual := true }, r⟩
    let d : Document := { Document.empty "a.thrift" with
      structs := [⟨"Point", [⟨1, "label", .string⟩, ⟨2, "data", .binary⟩]⟩]
      services := [⟨"Plane", none, [⟨"locate"⟩]⟩] }
    c.redirection.Built ∧ (∀ p ∈ confirmationsByType d, p.isRegistration = false) ∧
      (∀ rendering, ∃ b, (c.plan rendering d).block = .ok b) ∧
      ∃ b, (c.plan confirmationsByType d).block = .ok b ∧ b.WellFormed := by
  intro r c d
  have hlist : Redirection.ofList [("strings", "bytes"), ("bytes", "strings"),
      (Package.thrift.path, "strings")] = .ok r := by rfl
  have hbuilt : c.redirection.Built := .ofList hlist
  have hrendering : ∀ p ∈ confirmationsByType d, p.isRegistration = false := by decide
  have hplan := plan_wellFormed hbuilt d
  exact ⟨hbuilt, hrendering, hplan.1, hplan.2 confirmationsByType hrendering⟩

end Config

end ImportPlan
