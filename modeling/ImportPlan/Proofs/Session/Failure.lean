import ImportPlan.Proofs.Session.History

namespace ImportPlan

/-!
# Failed steps

A step may fail: a reservation meets another binding, a document comes second, a block is asked for
before there is a document, or a text is the name of no library. This file shows that such a step
leaves nothing behind, so that a run may be read as if it had never been asked for.

* `Scope.Answer.isRefusal`, `Session.Reply.isFailure` — the replies to steps that failed.
* `Session.StepsTo.eq_of_isFailure` — a step that fails leaves the session as it is.
* `Session.History.succeeded` — the steps of a history that did not fail, with their replies.
* `Session.after_steps_succeeded`, `Session.events_sublist` — the steps that did not fail lead to
  the same session on their own, and report nothing new.
* `Session.failed_steps_leave_no_trace` — so a run without its failed steps has the same replies to
  all others and ends in the same session.
-/

/-! ### Refused commands -/

namespace Scope

/-- Whether a command was refused: the name or the id to reserve is bound to something else. -/
def Answer.isRefusal : Answer → Bool
  | .reserved granted => !granted
  | .refused _ => true
  | .added _ | .found _ | .done | .listed _ => false

/-- What is refused is not granted. -/
theorem Answer.granted_of_isRefusal {a : Answer} (h : a.isRefusal = true) : a.granted = false := by
  cases a with
  | reserved answer =>
    have hnot : answer = false := by simpa [isRefusal] using h
    exact hnot
  | refused conflict => rfl
  | _ => cases h

/-- A refused command leaves the scope as it is. -/
theorem perform_of_isRefusal {s : Scope} {c : Command} (h : (s.perform c).2.isRefusal = true) :
    (s.perform c).1 = s := by
  cases c with
  | reserve name id =>
    have hrefused : (s.reserve name id).2 = false := by
      simpa [perform, Answer.isRefusal] using h
    rw [perform, reserve_of_refused hrefused]
  | demand name id =>
    rw [perform_demand] at h ⊢
    have hrefused : (s.reserve name id).2 = false := by
      cases hgranted : (s.reserve name id).2 with
      | false => rfl
      | true =>
        rw [hgranted] at h
        cases h
    exact reserve_of_refused hrefused
  | _ => cases h

end Scope

namespace Session

/-! ### Failed steps -/

/-- Whether a step failed. -/
def Reply.isFailure : Reply → Bool
  | .scope answer => answer.isRefusal
  | .misused _ | .rejected _ => true
  | .registered | .confirmed _ | .isConfirmed _ | .resolved _ => false

/-- **A step that fails leaves the session as it is**: it binds nothing and pins nothing, and
neither documents nor confirmations are counted. -/
theorem StepsTo.eq_of_isFailure {s s' : Session} {p : Step} {reply : Reply}
    (h : s.StepsTo p s' reply) (hfailure : reply.isFailure = true) : s' = s := by
  cases h with
  | performed c =>
    have hrefusal : (s.scope.perform (c.mapId s.redirection.resolve)).2.isRefusal = true := by
      rwa [← answer_perform]
    have hgranted := Scope.Answer.granted_of_isRefusal hrefusal
    have hscope := Scope.perform_of_isRefusal hrefusal
    -- nothing is bound, so that there is nothing to pin either
    rw [perform_eq]
    simp [hgranted, hscope]
  | registered features d _ => cases hfailure
  | confirmed l => cases hfailure
  | _ => rfl

/-! ### Runs without their failed steps -/

/-- The steps of a history that did not fail, with their replies. -/
def History.succeeded (h : History) : History := h.filter fun e => !e.2.isFailure

/-- The steps of a history. -/
def History.steps (h : History) : List Step := h.map (·.1)

theorem History.succeeded_append (h h' : History) :
    (h ++ h').succeeded = h.succeeded ++ h'.succeeded :=
  List.filter_append h h'

/-- A run that starts with a failed step succeeds in what the rest of it succeeds in. -/
theorem succeeded_cons_of_isFailure {s : Session} {p : Step}
    (h : (s.step p).2.1.isFailure = true) (ps : List Step) :
    (s.history (p :: ps)).succeeded = (s.history ps).succeeded := by
  have hstep : (s.step p).1 = s := (stepsTo_step s p).eq_of_isFailure h
  have hfirst : History.succeeded [(p, (s.step p).2.1)] = [] := by simp [History.succeeded, h]
  rw [history_cons, History.succeeded_append, hfirst, hstep, List.nil_append]

/-- A run that starts with a step that does not fail succeeds in this one as well. -/
theorem succeeded_cons_of_not_isFailure {s : Session} {p : Step}
    (h : (s.step p).2.1.isFailure = false) (ps : List Step) :
    (s.history (p :: ps)).succeeded =
      (p, (s.step p).2.1) :: ((s.step p).1.history ps).succeeded := by
  have hfirst : History.succeeded [(p, (s.step p).2.1)] = [(p, (s.step p).2.1)] := by
    simp [History.succeeded, h]
  rw [history_cons, History.succeeded_append, hfirst, List.singleton_append]

/-- The steps that did not fail lead to the same session on their own, with the same replies. -/
theorem after_steps_succeeded (s : Session) (steps : List Step) :
    s.history (s.history steps).succeeded.steps = (s.history steps).succeeded ∧
      s.after (s.history steps).succeeded.steps = s.after steps := by
  induction steps generalizing s with
  | nil => exact ⟨rfl, rfl⟩
  | cons p ps ih =>
    cases h : (s.step p).2.1.isFailure with
    | true =>
      -- both runs go on from the session that the failed step has found
      have hstep : (s.step p).1 = s := (stepsTo_step s p).eq_of_isFailure h
      rw [succeeded_cons_of_isFailure h, after_cons, hstep]
      exact ih s
    | false =>
      obtain ⟨hhistory, hafter⟩ := ih (s.step p).1
      rw [succeeded_cons_of_not_isFailure h]
      refine ⟨?_, hafter⟩
      show (p, (s.step p).2.1)
        :: (s.step p).1.history ((s.step p).1.history ps).succeeded.steps = _
      rw [hhistory]

/-- Without its failed steps a run reports a part of what it reports with them. -/
theorem events_sublist (s : Session) (steps : List Step) :
    (s.events (s.history steps).succeeded.steps).Sublist (s.events steps) := by
  induction steps generalizing s with
  | nil => exact List.Sublist.refl _
  | cons p ps ih =>
    cases h : (s.step p).2.1.isFailure with
    | true =>
      have hstep : (s.step p).1 = s := (stepsTo_step s p).eq_of_isFailure h
      rw [succeeded_cons_of_isFailure h, events_cons, hstep]
      exact (ih s).trans (List.sublist_append_right _ _)
    | false =>
      rw [succeeded_cons_of_not_isFailure h, events_cons]
      exact (ih (s.step p).1).append_left _

/-- A refused reservation, a second document and an unknown library are not missed. -/
example :
    let document : Step := .document Features.empty (.empty "a.thrift")
    let steps : List Step := [.resolve, .scope (.add "fmt" "fmt"), .scope (.reserve "fmt" "a/fmt"),
      document, .scope (.demand "format" "fmt"), document, .confirm "unsafe", .resolve]
    ((start (.empty .numbered) .empty).history steps).succeeded.steps =
      [.scope (.add "fmt" "fmt"), document, .resolve] := by
  decide

/-- **Failed steps leave no trace.** Take any run, and leave out of it all steps that failed: every
other step has the same reply, and the session after the run is the same in all its parts, so that
it has the same bindings and the same confirmed libraries and resolves to the same block, then and
after any further steps. Of the events, some may be missing. -/
theorem failed_steps_leave_no_trace (s : Session) (steps : List Step) :
    let kept := (s.history steps).succeeded
    s.history kept.steps = kept ∧ s.after kept.steps = s.after steps ∧
      (s.events kept.steps).Sublist (s.events steps) := by
  intro kept
  obtain ⟨hhistory, hafter⟩ := after_steps_succeeded s steps
  exact ⟨hhistory, hafter, events_sublist s steps⟩

end Session

end ImportPlan
