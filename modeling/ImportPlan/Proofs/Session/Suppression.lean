import ImportPlan.Proofs.Block.Contents
import ImportPlan.Proofs.Session.History

namespace ImportPlan.Session

/-!
# Held back libraries

Which paths a session holds back, and so which imports it resolves, in terms of what its run has
registered and confirmed.

* `History.HoldsBack` — an unconfirmed library leads to the path, and nothing requires it.
* `mem_block_after_iff` — the block after a run holds the registered ids that are not held back.
* `resolve_sound_and_complete` — the block holds every required id, and besides these only confirmed
  libraries that the document offers.
* `contains_offered_iff` — an offered library is imported exactly if its path is required or every
  library that leads to this path is confirmed.
* `confirmed_library_may_be_missing` — its own confirmation is not enough.
-/

/-- A path is held back: an unconfirmed library leads to it, and nothing requires it. -/
def History.HoldsBack (h : History) (r : Redirection) (path : String) : Prop :=
  (∀ id ∈ h.required, r.resolve id ≠ path) ∧ ∃ l, l ∉ h.confirmed ∧ r.resolve l.name = path

instance (h : History) (r : Redirection) (path : String) : Decidable (h.HoldsBack r path) :=
  decidable_of_iff ((∀ id ∈ h.required, r.resolve id ≠ path) ∧
      ∃ l ∈ Library.all, l ∉ h.confirmed ∧ r.resolve l.name = path) <| by
    refine and_congr_right fun _ => exists_congr fun l => and_iff_right ?_
    cases l <;> decide

variable (ρ : Renaming) (r : Redirection) (steps : List Step)

/-- What a session holds back after a run can be read off the history of the run. -/
theorem isHeldBack_after_iff (scope : Scope) (path : String) :
    ((start scope r).after steps).isHeldBack path = true ↔
      ((start scope r).history steps).HoldsBack r path := by
  have hrun := leads_start scope r steps
  have hredirection : ((start scope r).after steps).redirection = r := hrun.redirection
  have hpinned : path ∈ ((start scope r).after steps).pinned ↔
      ∃ id ∈ ((start scope r).history steps).required, r.resolve id = path := by
    rw [hrun.mem_pinned]
    exact or_iff_right (List.not_mem_nil)
  simp [isHeldBack, History.HoldsBack, hredirection, hpinned, mem_unconfirmed_after]

/-- The block after a run is built from the bindings that its history does not hold back. -/
theorem block_after_eq (scope : Scope) :
    ((start scope r).after steps).block =
      Block.ofBindings (fun path => decide (((start scope r).history steps).HoldsBack r path))
        ((start scope r).after steps).scope.bindings := by
  rw [block]
  congr 1
  funext path
  rw [Bool.eq_iff_iff, decide_eq_true_iff, isHeldBack_after_iff]

/-- The block after a run over an empty scope holds the ids that were registered in the run and are
not held back. -/
theorem mem_block_after_iff (path : String) :
    ((start (.empty ρ) r).after steps).block.contains path = true ↔
      ((∃ id ∈ ((start (.empty ρ) r).history steps).required, r.resolve id = path) ∨
        ∃ l ∈ ((start (.empty ρ) r).history steps).offered, r.resolve l.name = path) ∧
      ¬ ((start (.empty ρ) r).history steps).HoldsBack r path := by
  have hids := (leads_start (.empty ρ) r steps).mem_ids path
  rw [block_after_eq, Block.contains_ofBindings, decide_eq_false_iff_not]
  refine and_congr_left fun _ => hids.trans ?_
  exact or_iff_right (List.not_mem_nil)

/-- **A block is sound and complete.** Once a document is registered, the block holds an id that
was required, or a library that was offered and confirmed, and it holds every id that was required,
also where an unconfirmed library is redirected to the same path. -/
theorem resolve_sound_and_complete
    (hdocument : ((start (.empty ρ) r).after steps).hasDocument = true) :
    ∃ b, ((start (.empty ρ) r).after steps).resolve.1 = .ok b ∧
      (∀ path, b.contains path = true →
        (∃ id ∈ ((start (.empty ρ) r).history steps).required, r.resolve id = path) ∨
        ∃ l ∈ ((start (.empty ρ) r).history steps).offered,
          l ∈ ((start (.empty ρ) r).history steps).confirmed ∧ r.resolve l.name = path) ∧
      ∀ id ∈ ((start (.empty ρ) r).history steps).required,
        b.contains (r.resolve id) = true := by
  refine ⟨_, resolve_of_hasDocument hdocument, ?_, ?_⟩
  · intro path hpath
    obtain ⟨hregistered, hshown⟩ := (mem_block_after_iff ρ r steps path).1 hpath
    by_cases hrequired : ∃ id ∈ ((start (.empty ρ) r).history steps).required,
        r.resolve id = path
    · exact .inl hrequired
    · -- nothing requires the path, so it is shown only since no unconfirmed library leads to it
      obtain ⟨l, hoffered, hpath⟩ := hregistered.resolve_left hrequired
      refine .inr ⟨l, hoffered, ?_, hpath⟩
      by_contra hunconfirmed
      exact hshown ⟨fun id hid heq => hrequired ⟨id, hid, heq⟩, l, hunconfirmed, hpath⟩
  · intro id hid
    rw [mem_block_after_iff]
    exact ⟨.inl ⟨id, hid, rfl⟩, fun hheld => hheld.1 id hid rfl⟩

/-- A block with a template's path that an unconfirmed library is redirected to. -/
theorem resolve_sound_and_complete_of_coincidence :
    let r : Redirection := ⟨⟨[("bytes", "example.com/buffer")]⟩⟩
    let features : Features := { Features.empty with genDeepEqual := true }
    let steps : List Step := [.scope (.add "buffer" "example.com/buffer"),
      .document features (.empty "a.thrift"), .confirm "strings"]
    let s := start (.empty .numbered) r
    (s.after steps).hasDocument = true ∧
      ∃ b, (s.after steps).resolve.1 = .ok b ∧
        (∀ path, b.contains path = true →
          (∃ id ∈ (s.history steps).required, r.resolve id = path) ∨
          ∃ l ∈ (s.history steps).offered,
            l ∈ (s.history steps).confirmed ∧ r.resolve l.name = path) ∧
        ∀ id ∈ (s.history steps).required, b.contains (r.resolve id) = true := by
  intro r features steps s
  have hdocument : (s.after steps).hasDocument = true := by decide
  exact ⟨hdocument, resolve_sound_and_complete .numbered r steps hdocument⟩

/-! ### Libraries that share a path -/

/-- What is offered comes with a document. -/
theorem hasDocument_of_mem_offered {scope : Scope} {l : Library}
    (hoffered : l ∈ ((start scope r).history steps).offered) :
    ((start scope r).after steps).hasDocument = true := by
  rw [(leads_start scope r steps).hasDocument]
  obtain ⟨⟨p, reply⟩, he, hl⟩ := List.mem_flatMap.1 hoffered
  refine .inr ⟨(p, reply), he, ?_⟩
  cases p <;> cases reply <;> first | rfl | exact absurd hl List.not_mem_nil

/-- **When an offered library is imported.** The block holds its path exactly if the path is
required, or every library that leads to it is confirmed: the library itself, and each other one
that is redirected to the same path. -/
theorem contains_offered_iff {l : Library}
    (hoffered : l ∈ ((start (.empty ρ) r).history steps).offered) :
    ∃ b, ((start (.empty ρ) r).after steps).resolve.1 = .ok b ∧
      (b.contains (r.resolve l.name) = true ↔
        (∃ id ∈ ((start (.empty ρ) r).history steps).required,
          r.resolve id = r.resolve l.name) ∨
        ∀ m, r.resolve m.name = r.resolve l.name →
          m ∈ ((start (.empty ρ) r).history steps).confirmed) := by
  refine ⟨_, resolve_of_hasDocument (hasDocument_of_mem_offered r steps hoffered), ?_⟩
  rw [mem_block_after_iff, and_iff_right (.inr ⟨l, hoffered, rfl⟩), History.HoldsBack, not_and_or]
  refine or_congr ?_ ?_
  · simp
  · simp only [not_exists, not_and]
    exact forall_congr' fun m => by rw [not_imp_not]

/-- The block when all libraries that lead to one path are confirmed. -/
theorem contains_offered_iff_of_shared_path :
    let r : Redirection := ⟨⟨[("bytes", "strings")]⟩⟩
    let features : Features := { Features.empty with genDeepEqual := true }
    let steps : List Step :=
      [.confirm "bytes", .document features (.empty "a.thrift"), .confirm "strings"]
    let s := start (.empty .numbered) r
    Library.strings ∈ (s.history steps).offered ∧
      ∃ b, (s.after steps).resolve.1 = .ok b ∧
        (b.contains (r.resolve Library.strings.name) = true ↔
          (∃ id ∈ (s.history steps).required,
            r.resolve id = r.resolve Library.strings.name) ∨
          ∀ m, r.resolve m.name = r.resolve Library.strings.name →
            m ∈ (s.history steps).confirmed) := by
  intro r features steps s
  have hoffered : Library.strings ∈ (s.history steps).offered := by decide
  exact ⟨hoffered, contains_offered_iff .numbered r steps hoffered⟩

/-- **A confirmed library may be missing.** With `strings` redirected to `reflect`, a document that
offers only `reflect` has it held back after its confirmation, since `strings` is unconfirmed. -/
theorem confirmed_library_may_be_missing :
    ¬ ∀ (ρ : Renaming) (r : Redirection) (steps : List Step) (l : Library),
      l ∈ ((start (.empty ρ) r).history steps).offered →
      l ∈ ((start (.empty ρ) r).history steps).confirmed →
      ∃ b, ((start (.empty ρ) r).after steps).resolve.1 = .ok b ∧
        b.contains (r.resolve l.name) = true := by
  intro hall
  let r : Redirection := ⟨⟨[("strings", "reflect")]⟩⟩
  let features : Features := { Features.empty with validateSet := true }
  let steps : List Step := [.document features (.empty "a.thrift"), .confirm "reflect"]
  obtain ⟨b, hb, hcontains⟩ := hall .numbered r steps .reflect (by decide) (by decide)
  have hblock : ((start (.empty .numbered) r).after steps).resolve.1 = .ok Block.empty := by decide
  rw [hblock] at hb
  cases hb
  exact absurd hcontains (by decide)

end ImportPlan.Session
