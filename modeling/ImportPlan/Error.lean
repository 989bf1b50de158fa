import ImportPlan.Text.Quoted

namespace ImportPlan

/-!
# Errors

The ways in which a request to this library can be wrong, as data. The wording of each is in one
`message` function.

* `InputError` — a setting or a name that the library does not accept.
* `Misuse` — a session asked for something out of turn.
* `Conflict` — an exact reservation that another binding stands in the way of.
-/

/-- A setting or a name that is not accepted. -/
inductive InputError
  /-- No option has this name. -/
  | unknownOption (name : String)
  /-- The option is a switch and takes no such value. -/
  | invalidValue (option value : String)
  /-- The text is no import path. -/
  | invalidPath (path : String)
  /-- No library whose use is confirmed while rendering has this name. -/
  | unknownLibrary (name : String)
  deriving DecidableEq, Repr

/-- The wording of an input error. -/
def InputError.message : InputError → String
  | .unknownOption name => s!"unknown generator option: {name}"
  | .invalidValue option value => s!"invalid value {Text.quote value} for option {option}"
  | .invalidPath path => s!"invalid import path: {Text.quote path}"
  | .unknownLibrary name => s!"unknown standard library: {Text.quote name}"

/-- A session asked for something out of turn. -/
inductive Misuse
  /-- The imports were asked for before the document was registered. -/
  | noDocument
  /-- A document was registered a second time. -/
  | secondDocument
  deriving DecidableEq, Repr

/-- The wording of a misuse. -/
def Misuse.message : Misuse → String
  | .noDocument => "import manager queried before init"
  | .secondDocument => "import manager initialized twice"

/-- A name and an id that cannot be bound to each other. -/
structure Conflict where
  name : String
  id : String
  deriving DecidableEq, Repr

/-- The wording of a conflict. -/
def Conflict.message (c : Conflict) : String :=
  s!"namespace: cannot reserve name {Text.quote c.name} for id {Text.quote c.id}"

end ImportPlan
