import ImportPlan.Error
import ImportPlan.Text.Blank

namespace ImportPlan

/-!
# Features

The switches of the code generator that decide which imports a file needs.

* `Feature` — the switches, with the option that sets each.
* `Features` — a set of them; `Features.bits` as a number.
* `Features.apply`, `Features.ofOptions` — options of the form `name` or `name=true|false`.
-/

/-- A switch of the code generator. -/
inductive Feature
  /-- Enums can be read from and written to a database. -/
  | scanValueForEnum
  /-- Only type definitions are generated, no serialization. -/
  | definitionOnly
  /-- Fields that are not known are kept when a value is read. -/
  | keepUnknownFields
  /-- Values get a deep comparison. -/
  | genDeepEqual
  /-- Set fields are checked for duplicates by reflection. -/
  | validateSet
  deriving DecidableEq, Repr

namespace Feature

/-- All features in the order of their bits. -/
def all : List Feature :=
  [scanValueForEnum, definitionOnly, keepUnknownFields, genDeepEqual, validateSet]

/-- The name of the option that sets the feature. -/
def optionName : Feature → String
  | scanValueForEnum => "scan_value_for_enum"
  | definitionOnly => "definition_only"
  | keepUnknownFields => "keep_unknown_fields"
  | genDeepEqual => "gen_deep_equal"
  | validateSet => "validate_set"

/-- The value of the feature's bit. -/
def bit : Feature → Nat
  | scanValueForEnum => 1
  | definitionOnly => 2
  | keepUnknownFields => 4
  | genDeepEqual => 8
  | validateSet => 16

/-- The feature that an option of this name sets. -/
def ofOptionName? (name : String) : Option Feature := all.find? (·.optionName == name)

end Feature

/-! ### Sets of features -/

/-- Which features are on. -/
structure Features where
  scanValueForEnum : Bool
  definitionOnly : Bool
  keepUnknownFields : Bool
  genDeepEqual : Bool
  validateSet : Bool
  deriving DecidableEq, Repr

namespace Features

/-- No feature is on. -/
def empty : Features := ⟨false, false, false, false, false⟩

/-- Whether a feature is on. -/
def has (fs : Features) : Feature → Bool
  | .scanValueForEnum => fs.scanValueForEnum
  | .definitionOnly => fs.definitionOnly
  | .keepUnknownFields => fs.keepUnknownFields
  | .genDeepEqual => fs.genDeepEqual
  | .validateSet => fs.validateSet

/-- Turns one feature on or off. -/
def set (fs : Features) (f : Feature) (on : Bool) : Features :=
  match f with
  | .scanValueForEnum => { fs with scanValueForEnum := on }
  | .definitionOnly => { fs with definitionOnly := on }
  | .keepUnknownFields => { fs with keepUnknownFields := on }
  | .genDeepEqual => { fs with genDeepEqual := on }
  | .validateSet => { fs with validateSet := on }

/-- Setting a feature changes that one and no other. -/
theorem has_set (fs : Features) (f g : Feature) (on : Bool) :
    (fs.set f on).has g = if g = f then on else fs.has g := by
  cases f <;> cases g <;> rfl

/-- The features that are on, in the order of their bits. -/
def toList (fs : Features) : List Feature := Feature.all.filter fs.has

/-- The features that the list names are on. -/
def ofList (features : List Feature) : Features := features.foldl (·.set · true) empty

/-- The set as a number, one bit for each feature. -/
def bits (fs : Features) : Nat := fs.toList.foldl (fun n f => n + f.bit) 0

/-! ### Options -/

/-- An option in its parts: the name and the value, without the blanks around them. -/
def splitOption (option : String) : String × Option String :=
  let (name, value) := Text.splitAtFirst '=' option
  (Text.trim name, value.map Text.trim)

/-- What the value of a switch asks for; a switch without a value is turned on. -/
def parseSwitch (option : String) : Option String → Except InputError Bool
  | none | some "" | some "true" => .ok true
  | some "false" => .ok false
  | some other => .error (.invalidValue option other)

/-- Applies one option; an unknown name is reported before a bad value. -/
def apply (fs : Features) (option : String) : Except InputError Features :=
  let (name, value) := splitOption option
  match Feature.ofOptionName? name with
  | none => .error (.unknownOption name)
  | some f => return fs.set f (← parseSwitch name value)

/-- Applies the options in turn to the empty set; the first bad one ends it. -/
def ofOptions (options : List String) : Except InputError Features :=
  options.foldlM apply empty

end Features

end ImportPlan
