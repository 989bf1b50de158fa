import ImportPlan.Scope.Basic

namespace ImportPlan

/-!
# Commands to a scope

What templates may ask of a scope, as data, so that whole histories can be run and compared.

* `Scope.Command`, `Scope.Answer` — a request and what it yields.
* `Scope.perform` — carries out one command; `Scope.performAll` a history of them.
* `Scope.Command.mapId` — the same command about another id.
-/

namespace Scope

/-- A request to a scope. -/
inductive Command
  /-- Bind the id to the name or a renamed one. -/
  | add (name id : String)
  /-- Look up the name of the id. -/
  | get (id : String)
  /-- Bind the id to exactly this name if possible. -/
  | reserve (name id : String)
  /-- Bind the id to exactly this name. -/
  | demand (name id : String)
  /-- List the bindings in order, at most `limit` of them. -/
  | list (limit : Option Nat)
  deriving DecidableEq, Repr

/-- What a command yields. -/
inductive Answer
  | added (name : String)
  | found (name : Option String)
  | reserved (granted : Bool)
  | done
  | refused (conflict : Conflict)
  | listed (bindings : List Binding)
  deriving DecidableEq, Repr

/-- Carries out a command. A demand leaves behind what the reservation in it does, also where that
is a conflict. -/
def perform (s : Scope) : Command → Scope × Answer
  | .add name id => ((s.add name id).1, .added (s.add name id).2)
  | .get id => (s, .found (s.nameOf? id))
  | .reserve name id => ((s.reserve name id).1, .reserved (s.reserve name id).2)
  | .demand name id =>
    let answer : Answer := match s.demand name id with
      | .ok _ => .done
      | .error conflict => .refused conflict
    ((s.reserve name id).1, answer)
  | .list limit => (s, .listed (limit.elim s.bindings s.bindings.take))

/-- Carries out commands in turn and collects their answers. -/
def performAll (s : Scope) : List Command → Scope × List Answer
  | [] => (s, [])
  | c :: cs =>
    let (s', answer) := s.perform c
    let (s'', answers) := s'.performAll cs
    (s'', answer :: answers)

namespace Command

/-- The same command about the image of its id. -/
def mapId (f : String → String) : Command → Command
  | .add name id => .add name (f id)
  | .get id => .get (f id)
  | .reserve name id => .reserve name (f id)
  | .demand name id => .demand name (f id)
  | .list limit => .list limit

/-- The id that the command would bind. -/
def target? : Command → Option String
  | .add _ id | .reserve _ id | .demand _ id => some id
  | .get _ | .list _ => none

end Command

/-- Whether the id of the command is bound as asked. -/
def Answer.granted : Answer → Bool
  | .added _ | .done => true
  | .reserved granted => granted
  | .found _ | .refused _ | .listed _ => false

end Scope

end ImportPlan
