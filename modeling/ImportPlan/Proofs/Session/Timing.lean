import ImportPlan.Proofs.Session.Suppression

namespace ImportPlan

/-!
# When libraries are confirmed

A library is confirmed when a template comes to code that uses it, be that before the document is
registered, between two registrations or after the last one. This file shows that the moment has no
influence on anything else.

* `Session.Step.isRegistration` — the steps that register imports or ask for their names.
* `Session.Alike` — sessions that differ at most in which libraries are unconfirmed.
* `Session.Alike.step`, `Session.StepsTo.alike` — registrations do the same to alike sessions, and
  all other steps leave a session alike.
* `Session.Alike.run` — the registrations of a run act as if they were all of it.
* `Session.mem_unconfirmed_after_iff` — a library is unconfirmed unless some step confirms it.
* `Session.confirmation_timing` — two runs with the same registrations that confirm the same
  libraries have the same replies to the registrations, the same bindings and the same imports.
-/

namespace Session

/-! ### Sessions that differ in what is confirmed -/

/-- Whether a step registers imports or asks for names, rather than being about libraries or the
block. -/
def Step.isRegistration : Step → Bool
  | .scope _ | .document _ _ => true
  | .confirm _ | .isConfirmed _ | .resolve => false

/-- The sessions differ at most in which libraries are unconfirmed. -/
structure Alike (s t : Session) : Prop where
  scope : s.scope = t.scope
  redirection : s.redirection = t.redirection
  pinned : s.pinned = t.pinned
  hasDocument : s.hasDocument = t.hasDocument

theorem Alike.refl (s : Session) : Alike s s := ⟨rfl, rfl, rfl, rfl⟩

variable {s t u : Session}

theorem Alike.symm (h : Alike s t) : Alike t s :=
  ⟨h.scope.symm, h.redirection.symm, h.pinned.symm, h.hasDocument.symm⟩

theorem Alike.trans (h : Alike s t) (h' : Alike t u) : Alike s u :=
  ⟨h.scope.trans h'.scope, h.redirection.trans h'.redirection, h.pinned.trans h'.pinned,
    h.hasDocument.trans h'.hasDocument⟩

/-- A scope command reads nothing of what is confirmed. -/
theorem Alike.perform (h : Alike s t) (c : Scope.Command) :
    (s.perform c).2.1 = (t.perform c).2.1 ∧ Alike (s.perform c).1 (t.perform c).1 := by
  rw [answer_perform, answer_perform, perform_eq, perform_eq, h.scope, h.redirection, h.pinned]
  exact ⟨rfl, rfl, rfl, rfl, h.hasDocument⟩

/-- Neither do the registrations of a document. -/
theorem Alike.registerAll (h : Alike s t) (gs : List Registration) :
    Alike (s.registerAll gs).1 (t.registerAll gs).1 := by
  rw [registerAll_eq, registerAll_eq, h.scope, h.redirection, h.pinned]
  exact ⟨rfl, rfl, rfl, h.hasDocument⟩

/-- Whatever a registration comes to, it comes to the same in alike sessions. -/
theorem Alike.stepsTo (h : Alike s t) {p : Step} (hp : p.isRegistration = true) {s' t' : Session}
    {reply reply' : Reply} (hs : s.StepsTo p s' reply) (ht : t.StepsTo p t' reply') :
    reply = reply' ∧ Alike s' t' := by
  -- both sessions have a document or neither has, so that both follow one rule
  cases hs with
  | performed c =>
    cases ht
    obtain ⟨hanswer, hnext⟩ := h.perform c
    exact ⟨congrArg Reply.scope hanswer, hnext⟩
  | registered features d hdocument =>
    rw [h.hasDocument] at hdocument
    cases ht with
    | registered _ _ _ =>
      have hstart : Alike { s with hasDocument := true } { t with hasDocument := true } :=
        ⟨h.scope, h.redirection, h.pinned, rfl⟩
      exact ⟨rfl, hstart.registerAll (Rules.registrations features d)⟩
    | refused _ _ hdocument' => exact absurd hdocument' (by simp [hdocument])
  | refused features d hdocument =>
    rw [h.hasDocument] at hdocument
    cases ht with
    | registered _ _ hdocument' => exact absurd hdocument (by simp [hdocument'])
    | refused _ _ _ => exact ⟨rfl, h⟩
  | _ => cases hp

/-- **A registration does the same to alike sessions**, with the same reply. -/
theorem Alike.step (h : Alike s t) {p : Step} (hp : p.isRegistration = true) :
    (s.step p).2.1 = (t.step p).2.1 ∧ Alike (s.step p).1 (t.step p).1 :=
  h.stepsTo hp (stepsTo_step s p) (stepsTo_step t p)

/-- Every other step leaves a session alike: at most it takes a library off the unconfirmed ones. -/
theorem StepsTo.alike {p : Step} {s' : Session} {reply : Reply} (h : s.StepsTo p s' reply)
    (hp : p.isRegistration = false) : Alike s s' := by
  cases h with
  | performed c => cases hp
  | registered features d _ => cases hp
  | confirmed l => exact ⟨rfl, rfl, rfl, rfl⟩
  | _ => exact Alike.refl s

/-! ### Runs -/

/-- **The registrations of a run act as if they were all of it**: they get the same replies, and
lead to an alike session. -/
theorem Alike.run (h : Alike s t) (steps : List Step) :
    (s.history steps).filter (·.1.isRegistration) = t.history (steps.filter (·.isRegistration)) ∧
      Alike (s.after steps) (t.after (steps.filter (·.isRegistration))) := by
  induction steps generalizing s t with
  | nil => exact ⟨rfl, h⟩
  | cons p ps ih =>
    rw [history_cons, List.filter_append, after_cons]
    cases hp : p.isRegistration with
    | true =>
      obtain ⟨hreply, hnext⟩ := h.step hp
      obtain ⟨hreplies, hlast⟩ := ih hnext
      have hkept : [(p, (s.step p).2.1)].filter (·.1.isRegistration) = [(p, (s.step p).2.1)] :=
        List.filter_cons_of_pos hp
      rw [hkept, List.filter_cons_of_pos hp, history_cons, after_cons, hreplies, hreply]
      exact ⟨rfl, hlast⟩
    | false =>
      -- the step is left out on the other side
      have hnot : ¬ p.isRegistration = true := by simp [hp]
      have hnext : Alike (s.step p).1 t := ((stepsTo_step s p).alike hp).symm.trans h
      obtain ⟨hreplies, hlast⟩ := ih hnext
      have hgone : [(p, (s.step p).2.1)].filter (·.1.isRegistration) = [] :=
        List.filter_cons_of_neg hnot
      rw [hgone, List.filter_cons_of_neg hnot, hreplies]
      exact ⟨rfl, hlast⟩

/-- A step confirms a library if it names the library, whatever the session. -/
theorem StepsTo.mem_confirmedBy_iff {p : Step} {s' : Session} {reply : Reply}
    (h : s.StepsTo p s' reply) (l : Library) :
    l ∈ confirmedBy p reply ↔ p = .confirm l.name := by
  cases h with
  | confirmed l' =>
    rw [Step.confirm.injEq, Library.name_inj, eq_comm]
    exact List.mem_singleton
  | notConfirmed name e hname =>
    -- a library goes by its name, so this is not the name of one
    refine iff_of_false List.not_mem_nil ?_
    rintro heq
    cases heq
    rw [Library.ofName_eq_ok_iff.2 rfl] at hname
    cases hname
  | performed c => exact iff_of_false List.not_mem_nil nofun
  | _ => exact iff_of_false List.not_mem_nil nofun

/-- A history confirms the libraries that its steps name. -/
theorem mem_confirmed_history (s : Session) (steps : List Step) (l : Library) :
    l ∈ (s.history steps).confirmed ↔ .confirm l.name ∈ steps := by
  induction steps generalizing s with
  | nil => simp [history, History.confirmed]
  | cons p ps ih =>
    rw [history_cons, History.confirmed_append, List.mem_append, History.confirmed_singleton,
      (stepsTo_step s p).mem_confirmedBy_iff, ih, List.mem_cons, eq_comm]

/-- A library is unconfirmed after a run unless some step of it confirms the library. -/
theorem mem_unconfirmed_after_iff (scope : Scope) (r : Redirection) (steps : List Step)
    (l : Library) :
    l ∈ ((start scope r).after steps).unconfirmed ↔ .confirm l.name ∉ steps := by
  rw [mem_unconfirmed_after, mem_confirmed_history]

/-- Alike sessions in which the same libraries are unconfirmed resolve to the same block. -/
theorem Alike.resolve (h : Alike s t) (hunconfirmed : ∀ l, l ∈ s.unconfirmed ↔ l ∈ t.unconfirmed) :
    s.resolve.1 = t.resolve.1 := by
  have hheld : s.isHeldBack = t.isHeldBack := by
    funext path
    rw [Bool.eq_iff_iff, isHeldBack, isHeldBack, h.pinned, h.redirection]
    simp [hunconfirmed]
  have hblock : s.block = t.block := by
    rw [block, block, hheld, h.scope]
  rw [Session.resolve, Session.resolve, h.hasDocument, hblock]

/-- **The time of a confirmation does not matter.** Take two runs with the same registrations in the
same order, between which libraries are confirmed at any points and any number of times, and blocks
are resolved. If both confirm the same libraries, every registration has the same reply in both, the
scopes are the same in the end, and so is what they resolve to. -/
theorem confirmation_timing (scope : Scope) (r : Redirection) {steps steps' : List Step}
    (hregister : steps.filter (·.isRegistration) = steps'.filter (·.isRegistration))
    (hconfirm : ∀ l : Library, .confirm l.name ∈ steps ↔ .confirm l.name ∈ steps') :
    let s := start scope r
    (s.history steps).filter (·.1.isRegistration) =
        (s.history steps').filter (·.1.isRegistration) ∧
      (s.after steps).scope = (s.after steps').scope ∧
      (s.after steps).resolve.1 = (s.after steps').resolve.1 := by
  intro s
  -- both runs are compared with the one that only registers
  obtain ⟨hreplies, halike⟩ := (Alike.refl s).run steps
  obtain ⟨hreplies', halike'⟩ := (Alike.refl s).run steps'
  rw [← hregister] at hreplies' halike'
  have hboth : Alike (s.after steps) (s.after steps') := halike.trans halike'.symm
  refine ⟨hreplies.trans hreplies'.symm, hboth.scope, hboth.resolve ?_⟩
  intro l
  rw [mem_unconfirmed_after_iff, mem_unconfirmed_after_iff, hconfirm]

/-- A library confirmed before the document in one run, and twice after a refused document in the
other. -/
theorem confirmation_timing_around_document :
    let r : Redirection := ⟨⟨[("bytes", "example.com/buffer")]⟩⟩
    let features : Features := { Features.empty with genDeepEqual := true }
    let document : Step := .document features (.empty "a.thrift")
    let steps : List Step := [.confirm "bytes", document, .scope (.add "buffer" "c/buffer"),
      .confirm "strings", document]
    let steps' : List Step := [document, .confirm "strings", .scope (.add "buffer" "c/buffer"),
      document, .confirm "bytes", .confirm "bytes"]
    let s := start (.empty .underscored) r
    steps.filter (·.isRegistration) = steps'.filter (·.isRegistration) ∧
      (∀ l : Library, .confirm l.name ∈ steps ↔ .confirm l.name ∈ steps') ∧
      (s.history steps).filter (·.1.isRegistration) =
        (s.history steps').filter (·.1.isRegistration) ∧
      (s.after steps).scope = (s.after steps').scope ∧
      (s.after steps).resolve.1 = (s.after steps').resolve.1 := by
  intro r features document steps steps' s
  have hregister : steps.filter (·.isRegistration) = steps'.filter (·.isRegistration) := by decide
  have hconfirm : ∀ l : Library, .confirm l.name ∈ steps ↔ .confirm l.name ∈ steps' := by
    intro l
    cases l <;> decide
  exact ⟨hregister, hconfirm, confirmation_timing (.empty .underscored) r hregister hconfirm⟩

end Session

end ImportPlan
