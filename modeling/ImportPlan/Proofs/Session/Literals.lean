import ImportPlan.Proofs.Block.Rendering
import ImportPlan.Proofs.Session.Suppression
import ImportPlan.Proofs.Text.SourceLiteral

namespace ImportPlan

/-!
# Paths in rendered blocks

The text of a block is Go source, and each of its lines has the path of an import as a string
literal. Ids that templates add are not checked, so that a path may hold any character.

* `Block.QuotesAs` — what stands for the path on the line of an import.
* `Block.quotesAs_iff` — that is the quoted path.
* `Session.path_denoted_iff` — it is a literal for the path just if the characters of the path are
  portable; `Session.path_may_not_be_denoted` — not all ids consist of these.
-/

namespace Block

variable {b : Block} {e : String × String} {literal : String}

/-- The lines of imports. -/
def renderImports (imports : List (String × String)) : String :=
  String.join (imports.map fun e => renderImport e.1 e.2)

/-- In the text of the block, `literal` stands for the path on the line of the import: behind the
alias if there is one, and up to the end of the line. -/
def QuotesAs (b : Block) (e : String × String) (literal : String) : Prop :=
  ∃ before after, b.sorted = before ++ e :: after ∧
    b.render = "import (\n" ++ renderImports before ++
      ("\t" ++ (if e.2 = "" then "" else e.2 ++ " ") ++ literal ++ "\n") ++
      renderImports after ++ ")\n"

/-- The text of a block around the line of one of its imports. -/
theorem render_eq_of_sorted {before after : List (String × String)}
    (h : b.sorted = before ++ e :: after) :
    b.render = "import (\n" ++ renderImports before ++ renderImport e.1 e.2 ++
      renderImports after ++ ")\n" := by
  have hfull : ¬ b.isEmpty = true := by
    intro hempty
    have himports : b.imports = [] := List.isEmpty_iff.1 hempty
    have hmem : e ∈ b.imports := (sorted_perm b).mem_iff.1 (by simp [h])
    rw [himports] at hmem
    exact absurd hmem List.not_mem_nil
  rw [render, if_neg hfull, h, List.map_append, List.map_cons, String.join_append,
    String.join_cons]
  simp only [renderImports, String.append_assoc]

/-- **The quoted path stands on the line of each import**, and nothing else does. -/
theorem quotesAs_iff : b.QuotesAs e literal ↔ e ∈ b.imports ∧ literal = Text.quote e.1 := by
  constructor
  · rintro ⟨before, after, hsorted, hrender⟩
    refine ⟨(sorted_perm b).mem_iff.1 (by simp [hsorted]), ?_⟩
    rw [render_eq_of_sorted hsorted, renderImport] at hrender
    -- the text before the path and the text behind it are the same on both sides
    have hchars := congrArg String.toList hrender
    simp only [String.toList_append, List.append_assoc, List.append_cancel_left_eq] at hchars
    exact (String.toList_inj.1 (List.append_cancel_right hchars)).symm
  · rintro ⟨hmem, rfl⟩
    obtain ⟨before, after, hsorted⟩ := List.append_of_mem ((sorted_perm b).mem_iff.2 hmem)
    exact ⟨before, after, hsorted, render_eq_of_sorted hsorted⟩

end Block

namespace Session

/-- **When the path of an import is denoted by its line.** In the text of the block after any run,
each import has a line; what stands for its path there is a string literal for the path just if all
characters of the path are portable. -/
theorem path_denoted_iff (scope : Scope) (r : Redirection) (steps : List Step)
    (hdocument : ((start scope r).after steps).hasDocument = true) :
    ∃ b, ((start scope r).after steps).resolve.1 = .ok b ∧
      ∀ e ∈ b.imports, ∃ literal, b.QuotesAs e literal ∧
        (Text.Denotes literal (Text.utf8Bytes e.1) ↔ ∀ c ∈ e.1.toList, Text.IsPortable c) := by
  refine ⟨_, resolve_of_hasDocument hdocument, fun e he => ?_⟩
  exact ⟨_, Block.quotesAs_iff.2 ⟨he, rfl⟩, Text.denotes_quote_iff e.1⟩

/-- The block with a path that holds a tab and a quote, and one that ends in a combining
character. -/
theorem path_denoted_iff_of_accent :
    let steps : List Step := [.document .empty (.empty "a.thrift"),
      .scope (.add "tab" "a\t\"b"), .scope (.add "accent" "e\u0301")]
    let s := start (.empty .numbered) .empty
    (s.after steps).hasDocument = true ∧
      ∃ b, (s.after steps).resolve.1 = .ok b ∧
        b.imports = [("a\t\"b", "tab"), ("e\u0301", "accent")] ∧
        ∀ e ∈ b.imports, ∃ literal, b.QuotesAs e literal ∧
          (Text.Denotes literal (Text.utf8Bytes e.1) ↔ e.1 = "a\t\"b") := by
  intro steps s
  have hdocument : (s.after steps).hasDocument = true := by decide
  obtain ⟨b, hb, hlines⟩ := path_denoted_iff (.empty .numbered) .empty steps hdocument
  have himports : b.imports = [("a\t\"b", "tab"), ("e\u0301", "accent")] := by
    have hblock : (s.after steps).resolve.1 =
        .ok ⟨⟨[("a\t\"b", "tab"), ("e\u0301", "accent")]⟩⟩ := by decide
    rw [hblock] at hb
    cases hb
    rfl
  refine ⟨hdocument, b, hb, himports, fun e he => ?_⟩
  obtain ⟨literal, hquotes, hdenotes⟩ := hlines e he
  refine ⟨literal, hquotes, hdenotes.trans ?_⟩
  rw [himports] at he
  rcases List.mem_pair.1 he with rfl | rfl
  · refine iff_of_true ?_ rfl
    have hletters : Text.IsPortable 'a' ∧ Text.IsPortable '"' ∧ Text.IsPortable 'b' :=
      ⟨Text.isPortable_of_ascii (by decide) (by decide),
        Text.isPortable_of_ascii (by decide) (by decide),
        Text.isPortable_of_ascii (by decide) (by decide)⟩
    have htab : Text.IsPortable '\t' := .inr (.inl rfl)
    simp [hletters, htab]
  · refine iff_of_false (fun hall => ?_) (by decide)
    exact Text.not_isPortable_of_isCombining (by decide) (hall '\u0301' (by decide))

/-- **A path may not be denoted by its line.** A template adds a letter with a combining accent; it
is written by an escape that no literal has. -/
theorem path_may_not_be_denoted :
    ¬ ∀ (scope : Scope) (r : Redirection) (steps : List Step),
      ((start scope r).after steps).hasDocument = true →
      ∃ b, ((start scope r).after steps).resolve.1 = .ok b ∧
        ∀ e ∈ b.imports, ∃ literal, b.QuotesAs e literal ∧
          Text.Denotes literal (Text.utf8Bytes e.1) := by
  intro hall
  let steps : List Step := [.document .empty (.empty "a.thrift"), .scope (.add "accent" "e\u0301")]
  obtain ⟨b, hb, hlines⟩ := hall (.empty .numbered) .empty steps (by decide)
  have hblock : ((start (.empty .numbered) .empty).after steps).resolve.1 =
      .ok ⟨⟨[("e\u0301", "accent")]⟩⟩ := by decide
  rw [hblock] at hb
  cases hb
  obtain ⟨literal, hquotes, hdenotes⟩ := hlines ("e\u0301", "accent") List.mem_cons_self
  obtain ⟨-, rfl⟩ := Block.quotesAs_iff.1 hquotes
  have hall := (Text.denotes_quote_iff "e\u0301").1 hdenotes
  exact Text.not_isPortable_of_isCombining (by decide) (hall '\u0301' (by decide))

end Session

end ImportPlan
