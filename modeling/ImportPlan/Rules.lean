import ImportPlan.Document.Basic
import ImportPlan.Feature
import ImportPlan.Package

namespace ImportPlan

/-!
# Import rules

What the declarations of a document say about the imports of the code generated from it.

* `Registration` — a package that is imported, or a library that may turn out to be.
* `registrations` — the registrations of a document in order; a package may come more than once.
* `librariesByType` — the libraries that the code for the fields of a document calls.
-/

/-- An import that a document asks for. -/
inductive Registration
  /-- The package is imported. -/
  | required (package : Package)
  /-- The library is imported if its use is confirmed. -/
  | tentative (library : Library)
  deriving DecidableEq, Repr

namespace Rules

/-- Enums are formatted, and with the feature for it exchanged with a database. -/
def forEnums (features : Features) (d : Document) : List Package :=
  if d.enums.isEmpty then []
  else .fmt :: if features.scanValueForEnum then [.sqlDriver, .sql] else []

/-- The serialization runtime, if anything but definitions is generated. -/
def runtime (features : Features) : List Package :=
  if features.definitionOnly then [] else [.thrift]

/-- Struct-like declarations are formatted and serialized. -/
def forStructLikes (features : Features) (d : Document) : List Package :=
  if d.structLikeCount = 0 then [] else .fmt :: runtime features

/-- A service takes contexts unless it only inherits, and its functions format errors. -/
def forService (s : Service) : List Package :=
  (if !s.hasBase || !s.methods.isEmpty then [.context] else [])
    ++ if s.methods.isEmpty then [] else [.fmt]

/-- Services are serialized, and each has needs of its own. -/
def forServices (features : Features) (d : Document) : List Package :=
  if d.services.isEmpty then [] else runtime features ++ d.services.flatMap forService

/-- Whatever is read from outside may hold fields that are not known. -/
def forUnknownFields (features : Features) (d : Document) : List Package :=
  if 0 < d.structLikeCount + d.methodCount ∧ features.keepUnknownFields then [.unknown] else []

/-- The libraries that comparison and validation code may call. -/
def tentativeLibraries (features : Features) : List Library :=
  if features.genDeepEqual then [.strings, .bytes]
  else if features.validateSet then [.reflect] else []

/-- The packages that the declarations ask for. -/
def requiredPackages (features : Features) (d : Document) : List Package :=
  forEnums features d ++ forStructLikes features d ++ forServices features d
    ++ forUnknownFields features d

/-- All registrations of a document in order. -/
def registrations (features : Features) (d : Document) : List Registration :=
  (requiredPackages features d).map .required ++ (tentativeLibraries features).map .tentative

/-! ### Libraries called by field code -/

/-- The library that the code for a field of this type calls. -/
def libraryForType? : FieldType → Option Library
  | .string => some .strings
  | .binary => some .bytes
  | .set _ => some .reflect
  | _ => none

/-- The libraries that the code for the fields of the document calls, field by field. -/
def librariesByType (d : Document) : List Library :=
  d.structLikes.flatMap fun s => s.fields.filterMap fun f => libraryForType? f.type

end Rules

end ImportPlan
