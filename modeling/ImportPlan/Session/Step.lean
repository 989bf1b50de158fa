import ImportPlan.Session.Basic

namespace ImportPlan

/-!
# Runs of a session

What templates may ask of a session, as data.

* `Session.Step`, `Session.Reply` — a request and what it yields.
* `Session.step` — carries out one step; `Session.run` a whole program.
-/

namespace Session

/-- A request to a session. -/
inductive Step
  | scope (command : Scope.Command)
  | document (features : Features) (document : Document)
  /-- Confirm the use of the library of this name. -/
  | confirm (library : String)
  /-- Ask whether the use of the library of this name is confirmed. -/
  | isConfirmed (library : String)
  | resolve
  deriving DecidableEq, Repr

/-- What a step yields. -/
inductive Reply
  | scope (answer : Scope.Answer)
  | registered
  | confirmed (library : Library)
  | isConfirmed (confirmed : Bool)
  | resolved (block : Block)
  | misused (misuse : Misuse)
  | rejected (error : InputError)
  deriving DecidableEq, Repr

/-- Carries out one step; a step that fails leaves the session as it is. -/
def step (s : Session) : Step → Session × Reply × List Event
  | .scope command =>
    let (s', answer, events) := s.perform command
    (s', .scope answer, events)
  | .document features document =>
    match s.registerDocument features document with
    | (.ok s', events) => (s', .registered, events)
    | (.error misuse, events) => (s, .misused misuse, events)
  | .confirm library =>
    match Library.ofName library with
    | .ok l =>
      let (s', events) := s.confirm l
      (s', .confirmed l, events)
    | .error e => (s, .rejected e, [])
  | .isConfirmed library =>
    match Library.ofName library with
    | .ok l => (s, .isConfirmed (s.isConfirmed l), [])
    | .error e => (s, .rejected e, [])
  | .resolve =>
    match s.resolve with
    | (.ok block, events) => (s, .resolved block, events)
    | (.error misuse, events) => (s, .misused misuse, events)

/-- Carries out steps in turn and gives the replies and all events. -/
def run (s : Session) : List Step → Session × List Reply × List Event
  | [] => (s, [], [])
  | p :: ps =>
    let (s', reply, events) := s.step p
    let (s'', replies, events') := s'.run ps
    (s'', reply :: replies, events ++ events')

end Session

end ImportPlan
