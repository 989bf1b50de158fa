import ImportPlan.Package

namespace ImportPlan

/-!
# Log

* `Level` — how much a message matters; a threshold lets through what matters at least as much.
* `Event` — what the planning of imports reports, with its level and wording.
* `Logger` — where messages go: nowhere, or line by line to the console.
-/

/-! ### Levels -/

/-- How much a message matters, from the least on. -/
inductive Level
  | debug
  | info
  | warn
  | error
  deriving DecidableEq, Repr, Ord

namespace Level

/-- All levels in order. -/
def all : List Level := [debug, info, warn, error]

/-- The place in the order of levels. -/
def rank : Level → Nat
  | debug => 0
  | info => 1
  | warn => 2
  | error => 3

/-- The name in capitals. -/
def label : Level → String
  | debug => "DEBUG"
  | info => "INFO"
  | warn => "WARN"
  | error => "ERROR"

/-- Whether a message of this level passes the threshold. -/
def passes (level threshold : Level) : Bool := threshold.rank ≤ level.rank

end Level

/-! ### Events -/

/-- What the planning of imports reports. -/
inductive Event
  /-- An id was replaced before it was bound. -/
  | redirected (id target : String)
  /-- A required package was registered under its path. -/
  | registered (path name : String)
  /-- A library that may turn out to be needed was registered. -/
  | registeredTentatively (library : Library) (name : String)
  /-- The use of a library was confirmed for the first time. -/
  | confirmed (library : Library)
  /-- The imports of a file were resolved. -/
  | resolved (count : Nat)
  /-- A file was planned. -/
  | planned (filename : String) (count : Nat)
  deriving DecidableEq, Repr

namespace Event

/-- The planning of a file is worth an information, all else is for debugging. -/
def level : Event → Level
  | planned .. => .info
  | redirected .. | registered .. | registeredTentatively .. | confirmed .. | resolved .. => .debug

/-- The wording of an event. -/
def message : Event → String
  | redirected id target => s!"redirect import {id} -> {target}"
  | registered path name => s!"register import {path} as {name}"
  | registeredTentatively library name =>
    s!"register tentative import {library.name} as {name}"
  | confirmed library => s!"confirm use of {library.name}"
  | resolved count => s!"resolved {count} imports"
  | planned filename count => s!"{filename}: {count} imports"

/-- An event as a line of a recorded log. -/
def line (e : Event) : String := e.level.label ++ " " ++ e.message

/-- The lines of the events that pass the threshold; no threshold keeps nothing. -/
def lines (threshold : Option Level) (events : List Event) : List String :=
  match threshold with
  | none => []
  | some t => (events.filter (·.level.passes t)).map line

end Event

/-! ### Loggers -/

/-- Where messages go. -/
inductive Logger
  /-- Nowhere. -/
  | silent
  /-- To the console, each line with the file it is about if there is one. -/
  | console (threshold : Level) (scope : Option String)
  deriving DecidableEq, Repr

namespace Logger

/-- The level from which on messages are wanted. -/
def level : Logger → Level
  | silent => .error
  | console threshold _ => threshold

/-- Whether messages of this level are wanted. -/
def isEnabled (l : Logger) (level : Level) : Bool := level.passes l.level

/-- A message with its level and scope. -/
def format (scope : Option String) (level : Level) (message : String) : String :=
  match scope with
  | some s => s!"[{level.label}] {s}: {message}"
  | none => s!"[{level.label}] {message}"

/-- The text that logging a message writes to the console. -/
def write (l : Logger) (level : Level) (message : String) : String :=
  match l with
  | silent => ""
  | console _ scope => if l.isEnabled level then format scope level message ++ "\n" else ""

end Logger

end ImportPlan
