import ImportPlan.Binary64.Shortest
import ImportPlan.Error

namespace ImportPlan.Json

/-!
# What can be wrong with a JSON text

* `Fault` — the text is no JSON from some point on.
* `Mismatch` — the text is JSON so far but does not fit what is read from it.
* `Problem` — one of the two, or a value that fits but is not accepted.
-/

/-- How a text fails to be JSON. -/
inductive Fault
  /-- It ends too early. -/
  | ended
  /-- It goes on in a way that JSON does not allow. -/
  | malformed
  deriving DecidableEq, Repr

/-! ### Values that are met -/

/-- A value without parts other than a text. -/
inductive Scalar
  | null
  | bool (value : Bool)
  | integer (value : Int)
  | float (value : Binary64)
  deriving DecidableEq, Repr

/-- What is met where something else is expected. -/
inductive Found
  | scalar (value : Scalar)
  | text (value : String)
  | list
  | object
  /-- The name of a variant without its payload. -/
  | unitVariant
  deriving DecidableEq, Repr

/-- A name between backquotes. -/
def backquote (s : String) : String := "`" ++ s ++ "`"

/-- What is met, in words. -/
def Found.describe : Found → String
  | .scalar .null => "null"
  | .scalar (.bool b) => "boolean " ++ backquote (toString b)
  | .scalar (.integer n) => "integer " ++ backquote (toString n)
  | .scalar (.float x) => "floating point " ++ backquote x.text
  | .text s => "string " ++ Text.quote s
  | .list => "sequence"
  | .object => "map"
  | .unitVariant => "unit variant"

/-! ### Mismatches -/

/-- How a JSON text fails to fit. -/
inductive Mismatch
  /-- A value of another kind than expected. -/
  | invalidType (found : Found) (expected : String)
  /-- A value of the expected kind that is out of its range. -/
  | invalidValue (found : Found) (expected : String)
  /-- A list with fewer items than expected. -/
  | invalidLength (length : Nat) (expected : String)
  /-- A required member is absent. -/
  | missingField (name : String)
  /-- A member comes twice. -/
  | duplicateField (name : String)
  /-- A member that is not among the allowed ones. -/
  | unknownField (name : String) (allowed : List String)
  /-- A variant that is not among the allowed ones. -/
  | unknownVariant (name : String) (allowed : List String)
  deriving DecidableEq, Repr

/-- Names to choose from. -/
def oneOf (names : List String) : String := "one of " ++ ", ".intercalate (names.map backquote)

/-- The wording of a mismatch. -/
def Mismatch.message : Mismatch → String
  | .invalidType found expected => s!"invalid type: {found.describe}, expected {expected}"
  | .invalidValue found expected => s!"invalid value: {found.describe}, expected {expected}"
  | .invalidLength length expected => s!"invalid length {length}, expected {expected}"
  | .missingField name => s!"missing field {backquote name}"
  | .duplicateField name => s!"duplicate field {backquote name}"
  | .unknownField name allowed => s!"unknown field {backquote name}, expected {oneOf allowed}"
  | .unknownVariant name allowed => s!"unknown variant {backquote name}, expected {oneOf allowed}"

/-- Why nothing was read. -/
inductive Problem
  | fault (fault : Fault)
  | mismatch (mismatch : Mismatch)
  /-- The value fits, but its content is not accepted. -/
  | rejected (error : InputError)
  deriving DecidableEq, Repr

/-- The problem of a text that ends too early. -/
abbrev Problem.ended : Problem := .fault .ended

/-- The problem of a text that JSON does not allow. -/
abbrev Problem.malformed : Problem := .fault .malformed

end ImportPlan.Json
