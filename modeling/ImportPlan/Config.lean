import ImportPlan.Feature
import ImportPlan.Json.Decoder
import ImportPlan.Package
import ImportPlan.Redirection

namespace ImportPlan

open Json (Column Decoder Problem Record)

/-!
# Configuration

The settings that all files of a run share: the features and the redirection of imports. They come
from a list of options or from a JSON object; both can send the serialization runtime elsewhere.

* `Config.ofOptions` — options in turn, a later one overriding an earlier one.
* `Config.ofJson` — an object of settings; unknown and repeated members are refused.
* `Config.load` — the content of a file.
-/

/-- The settings of a run. -/
structure Config where
  features : Features
  redirection : Redirection
  deriving DecidableEq, Repr

namespace Config

/-- The settings that change nothing. -/
def default : Config := ⟨Features.empty, Redirection.empty⟩

/-! ### Options -/

/-- The setting that replaces the serialization runtime. -/
def runtimePathOption : String := "thrift_import_path"

/-- Sends the serialization runtime to another path. -/
def setRuntimePath (r : Redirection) (path : String) : Except InputError Redirection :=
  r.insert Package.thrift.path path

/-- Applies one option. -/
def apply (c : Config) (option : String) : Except InputError Config :=
  match Features.splitOption option with
  | (name, some path) =>
    if name = runtimePathOption then
      return { c with redirection := ← setRuntimePath c.redirection path }
    else return { c with features := ← c.features.apply option }
  | (_, none) => return { c with features := ← c.features.apply option }

/-- The settings given by options; the first bad one ends it. -/
def ofOptions (options : List String) : Except InputError Config :=
  options.foldlM apply default

/-! ### JSON -/

/-- The features that have been read, and those that have been mentioned. -/
structure FeatureSlots where
  mentioned : Features
  on : Features

/-- The member for one feature. -/
def featureColumn (f : Feature) : Column FeatureSlots where
  name := f.optionName
  isSet s := s.mentioned.has f
  read source o := do
    let value ← Decoder.bool source o
    return fun s => ⟨s.mentioned.set f true, s.on.set f value⟩

/-- Sets of features as records with a boolean for each feature. -/
def featuresRecord : Record FeatureSlots Features where
  name := "FeatureOptions"
  columns := Feature.all.map featureColumn
  unknown := .rejected
  hasDefaults := true
  start := ⟨Features.empty, Features.empty⟩
  finish s := .ok s.on

/-- Reads a set of features. -/
def featuresDecoder : Decoder Features := featuresRecord.decoder

/-- The settings as they are written. -/
structure Settings where
  features : Features
  redirections : List (String × String)
  runtimePath : Option String

/-- The settings that have been read. -/
structure Slots where
  features : Option Features := none
  redirections : Option (List (String × String)) := none
  runtimePath : Option (Option String) := none

/-- Settings as records; each has a default. -/
def record : Record Slots Settings where
  name := "RawGeneratorConfig"
  columns :=
    [.ofSlot "features" (·.features) (fun x s => { s with features := some x }) featuresDecoder,
     .ofSlot "import_replace" (·.redirections) (fun x s => { s with redirections := some x })
      (.dictionary Decoder.text),
     .ofSlot runtimePathOption (·.runtimePath) (fun x s => { s with runtimePath := some x })
      (.option Decoder.text)]
  unknown := .rejected
  hasDefaults := true
  start := {}
  finish s := .ok ⟨s.features.getD .empty, s.redirections.getD [], s.runtimePath.getD none⟩

/-- The configuration of written settings. A later redirection of an id hides an earlier one, and
the path of the runtime hides both. -/
def ofSettings (s : Settings) : Except InputError Config := do
  let redirection ← Redirection.ofList (Table.ofList s.redirections).entries
  match s.runtimePath with
  | none => return ⟨s.features, redirection⟩
  | some path => return ⟨s.features, ← setRuntimePath redirection path⟩

/-- Accepts written settings whose paths are valid. -/
def accept (s : Settings) : Except Problem Config := (ofSettings s).mapError .rejected

/-- Reads a configuration. -/
def ofJson (text : String) : Except Problem Config := record.decoder.parseThen accept text

/-! ### Files -/

/-- Why a file has no text. -/
inductive ReadFailure
  /-- There is no such file. -/
  | missing
  /-- The content is no UTF-8 text. -/
  | undecodable
  deriving DecidableEq, Repr

/-- The wording of a failure to read a file. -/
def ReadFailure.message : ReadFailure → String
  | missing => "No such file or directory (os error 2)"
  | undecodable => "stream did not contain valid UTF-8"

/-- Why a configuration file cannot be used. -/
inductive LoadError
  | unreadable (failure : ReadFailure)
  /-- The text is no configuration. -/
  | invalid (problem : Problem)
  deriving DecidableEq, Repr

/-- What was attempted with the file at this path. -/
def LoadError.message (path : String) : LoadError → String
  | unreadable _ => s!"failed to read generator config {path}"
  | invalid _ => s!"invalid generator config {path}"

/-- The text of a file's content, if there is a file. -/
def readText (content : Option ByteArray) : Except ReadFailure String :=
  match content with
  | none => .error .missing
  | some bytes =>
    match String.fromUTF8? bytes with
    | none => .error .undecodable
    | some text => .ok text

/-- Reads the configuration in a file's content, if there is a file. -/
def load (content : Option ByteArray) : Except LoadError Config := do
  let text ← (readText content).mapError .unreadable
  (ofJson text).mapError .invalid

end Config

end ImportPlan
