import ImportPlan.Block
import ImportPlan.Log
import ImportPlan.Redirection
import ImportPlan.Rules
import ImportPlan.Scope.Command

namespace ImportPlan

/-!
# Sessions

A session collects the imports of one file. Most follow from the document and are registered at
once. Whether a tentative library is needed is only known after rendering: it is registered up
front, so that its alias is stable, and held back until its use is confirmed.

* `Session.perform` — a scope command under redirection; what it binds is imported for certain.
* `Session.registerDocument` — registers what the document asks for.
* `Session.confirm` — says that a library is used.
* `Session.resolve` — the import block so far.

Each gives the events that it reports beside its result.
-/

/-- The state of one file's imports. -/
structure Session where
  scope : Scope
  redirection : Redirection
  /-- The libraries whose use is not confirmed. -/
  unconfirmed : List Library
  /-- The ids that are imported for certain, after redirection. -/
  pinned : List String
  /-- Whether the document has been registered. -/
  hasDocument : Bool

namespace Session

/-- A session over a scope in which nothing is registered or confirmed. -/
def start (scope : Scope) (redirection : Redirection) : Session :=
  ⟨scope, redirection, Library.all, [], false⟩

/-- Imports the target of `id` for certain. -/
def pin (s : Session) (id : String) : Session :=
  { s with pinned := s.redirection.resolve id :: s.pinned }

end Session

/-! ### Scope commands -/

/-- Reports the redirection of the id that a command binds. -/
def Redirection.events (r : Redirection) (c : Scope.Command) : List Event :=
  match c.target? with
  | none => []
  | some id => if r.resolve id = id then [] else [.redirected id (r.resolve id)]

/-- Carries out a scope command about the redirected id. -/
def Redirection.perform (r : Redirection) (s : Scope) (c : Scope.Command) :
    Scope × Scope.Answer × List Event :=
  let (s', answer) := s.perform (c.mapId r.resolve)
  (s', answer, r.events c)

namespace Session

/-- Carries out a scope command and pins what it binds. -/
def perform (s : Session) (c : Scope.Command) : Session × Scope.Answer × List Event :=
  let (scope, answer, events) := s.redirection.perform s.scope c
  let s' := { s with scope }
  match c.target? with
  | some id => (if answer.granted then s'.pin id else s', answer, events)
  | none => (s', answer, events)

/-! ### Registration -/

/-- Binds `id` to `name` under redirection and gives the name it has got. -/
def add (s : Session) (name id : String) : Session × String × List Event :=
  let (scope, owned) := s.scope.add name (s.redirection.resolve id)
  ({ s with scope }, owned, s.redirection.events (.add name id))

/-- Makes one registration; only a required package is pinned. -/
def register (s : Session) : Registration → Session × List Event
  | .required p =>
    let (s', name, events) := s.add p.name p.path
    (s'.pin p.path, events ++ [.registered (s.redirection.resolve p.path) name])
  | .tentative l =>
    let (s', name, events) := s.add l.name l.name
    (s', events ++ [.registeredTentatively l name])

/-- Makes registrations in turn. -/
def registerAll (s : Session) : List Registration → Session × List Event
  | [] => (s, [])
  | r :: rs =>
    let (s', events) := s.register r
    let (s'', events') := s'.registerAll rs
    (s'', events ++ events')

/-- Registers what the document asks for, once. -/
def registerDocument (s : Session) (features : Features) (d : Document) :
    Except Misuse Session × List Event :=
  if s.hasDocument then (.error .secondDocument, [])
  else
    let (s', events) := { s with hasDocument := true }.registerAll (Rules.registrations features d)
    (.ok s', events)

/-! ### Confirmation -/

/-- Says that rendered code uses the library; only the first time is reported. -/
def confirm (s : Session) (l : Library) : Session × List Event :=
  if l ∈ s.unconfirmed then
    ({ s with unconfirmed := s.unconfirmed.erase l }, [.confirmed l])
  else (s, [])

/-- Whether the use of the library has been confirmed. -/
def isConfirmed (s : Session) (l : Library) : Bool := l ∉ s.unconfirmed

/-! ### Resolution -/

/-- Whether a path is held back: an unconfirmed library leads to it, and nothing pins it. -/
def isHeldBack (s : Session) (path : String) : Bool :=
  path ∉ s.pinned && s.unconfirmed.any fun l => s.redirection.resolve l.name == path

/-- The imports so far. -/
def block (s : Session) : Block := Block.ofBindings s.isHeldBack s.scope.bindings

/-- The imports so far, if the document has been registered. -/
def resolve (s : Session) : Except Misuse Block × List Event :=
  if s.hasDocument then (.ok s.block, [.resolved s.block.size])
  else (.error .noDocument, [])

end Session

end ImportPlan
