import ImportPlan.Config
import ImportPlan.Session.Step

namespace ImportPlan

/-!
# Planning

* `plan` — the import block of one document: its session is started, rendering confirms libraries
  and registers further imports, and then the imports are resolved.
* `planAll` — the blocks of many documents. Each has a session of its own, so that they may be
  planned in any order.
-/

/-- What rendering asks of the session of a document. -/
abbrev Rendering := Document → List Session.Step

/-- The outcome of planning one document, and what was reported on the way. -/
structure FilePlan where
  block : Except Misuse Block
  events : List Event

namespace Config

/-- The session of a file in which nothing has happened yet. -/
def session (c : Config) : Session := .start (.empty .numbered) c.redirection

/-- Plans one document; the replies to the steps of the rendering are of no interest. -/
def plan (c : Config) (rendering : Rendering) (d : Document) : FilePlan :=
  match c.session.registerDocument c.features d with
  | (.error misuse, events) => ⟨.error misuse, events⟩
  | (.ok s, documentEvents) =>
    let (s', _, renderEvents) := s.run (rendering d)
    match s'.resolve with
    | (.error misuse, events) => ⟨.error misuse, documentEvents ++ renderEvents ++ events⟩
    | (.ok block, events) =>
      ⟨.ok block, documentEvents ++ renderEvents ++ events ++ [.planned d.filename block.size]⟩

/-- Plans every document; the results are in the order of the documents. -/
def planAll (c : Config) (rendering : Rendering) (ds : List Document) : List FilePlan :=
  ds.map (c.plan rendering)

end Config

/-- The confirmations that the fields of a document call for. -/
def confirmationsByType : Rendering := fun d =>
  (Rules.librariesByType d).map fun l => .confirm l.name

end ImportPlan
