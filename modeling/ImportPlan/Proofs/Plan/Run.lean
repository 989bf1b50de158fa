import ImportPlan.Pool
import ImportPlan.Proofs.Session.History

namespace ImportPlan

/-!
# Plans as runs

Planning a file is one run of its session: the document is registered, then the steps of the
rendering follow. The document is the first one, so that no file is left without a block.

* `FilePlan.after` — a plan with events before its own.
* `Config.plan_of_registerDocument` — the plan of a file from the registration of its document on.
* `Config.stepsFor` — the steps of the run; `Config.hasDocument_after_stepsFor` — a document is
  registered in the end.
* `Config.plan_eq` — the plan of a file, read off its run.
-/

namespace FilePlan

/-- A plan with events before its own. -/
def after (events : List Event) (p : FilePlan) : FilePlan := ⟨p.block, events ++ p.events⟩

theorem after_append (events events' : List Event) (p : FilePlan) :
    p.after (events ++ events') = (p.after events').after events := by
  rw [after, after, after, List.append_assoc]

/-- A session that has a document is resolved to its block. -/
theorem ofSession_of_hasDocument (d : Document) {s : Session} (h : s.hasDocument = true) :
    ofSession d s = ⟨.ok s.block, [.resolved s.block.size, .planned d.filename s.block.size]⟩ := by
  have hresolve : s.resolve = (.ok s.block, [.resolved s.block.size]) := by
    rw [Session.resolve]
    exact if_pos h
  rw [ofSession, hresolve]
  rfl

end FilePlan

namespace Config

variable (c : Config) (rendering : Rendering) (d : Document)

/-- Once the document is registered, its rendering is run and the imports are resolved. -/
theorem plan_of_registerDocument {s : Session} {events : List Event}
    (h : c.session.registerDocument c.features d = (.ok s, events)) :
    c.plan rendering d =
      (FilePlan.ofSession d (s.after (rendering d))).after (events ++ s.events (rendering d)) := by
  rcases hrun : s.run (rendering d) with ⟨s', replies, renderEvents⟩
  have hafter : s.after (rendering d) = s' := by rw [Session.after, hrun]
  have hevents : s.events (rendering d) = renderEvents := by rw [Session.events, hrun]
  rw [plan, h, hafter, hevents, FilePlan.ofSession]
  simp only [hrun]
  rcases s'.resolve with ⟨misuse | b, last⟩
  · rfl
  · show FilePlan.mk _ (events ++ renderEvents ++ last ++ [_]) =
      FilePlan.mk _ (events ++ renderEvents ++ (last ++ [_]))
    rw [List.append_assoc]

/-- The steps by which a file is planned. -/
def stepsFor : List Session.Step := .document c.features d :: rendering d

/-- The session of a file accepts the document. -/
theorem registerDocument_session :
    c.session.registerDocument c.features d =
      (.ok (c.session.step (.document c.features d)).1,
        (c.session.step (.document c.features d)).2.2) := rfl

/-- A document is registered in the end. -/
theorem hasDocument_after_stepsFor :
    (c.session.after (c.stepsFor rendering d)).hasDocument = true := by
  have hrun := Session.leads_start (.empty .numbered) c.redirection (c.stepsFor rendering d)
  exact hrun.hasDocument.2 (.inr ⟨_, List.mem_cons_self, rfl⟩)

/-- **The plan of a file**: the block that its run leads to, and the events of the run before those
of the block. -/
theorem plan_eq :
    c.plan rendering d =
      let b := (c.session.after (c.stepsFor rendering d)).block
      ⟨.ok b, c.session.events (c.stepsFor rendering d)
        ++ [.resolved b.size, .planned d.filename b.size]⟩ := by
  have hdocument := hasDocument_after_stepsFor c rendering d
  have hrun := plan_of_registerDocument c rendering d (registerDocument_session c d)
  rw [← Session.events_cons, ← Session.after_cons, ← stepsFor,
    FilePlan.ofSession_of_hasDocument d hdocument] at hrun
  exact hrun

end Config

end ImportPlan
