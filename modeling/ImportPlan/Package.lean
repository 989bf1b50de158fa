import ImportPlan.Error

namespace ImportPlan

/-!
# Packages that generated code imports

* `Package` — a package whose need follows from the document, with its local name and its path.
* `Library` — a package of the standard library whose need is only known after rendering.
-/

/-- A package, by the local name it is used under and its import path. -/
structure Package where
  name : String
  path : String
  deriving DecidableEq, Repr

namespace Package

/-- Formatting. -/
def fmt : Package := ⟨"fmt", "fmt"⟩

/-- Request contexts. -/
def context : Package := ⟨"context", "context"⟩

/-- Values that go into a database. -/
def sqlDriver : Package := ⟨"driver", "database/sql/driver"⟩

/-- Values that come from a database. -/
def sql : Package := ⟨"sql", "database/sql"⟩

/-- The serialization runtime. -/
def thrift : Package := ⟨"thrift", "github.com/apache/thrift/lib/go/thrift"⟩

/-- Support for fields that are not known. -/
def unknown : Package :=
  ⟨"unknown", "github.com/cloudwego/thriftgo/generator/golang/extension/unknown"⟩

/-- All packages that a document can ask for. -/
def all : List Package := [fmt, context, sqlDriver, sql, thrift, unknown]

end Package

/-- A package of the standard library whose use is confirmed while rendering. -/
inductive Library
  | strings
  | bytes
  | reflect
  deriving DecidableEq, Repr, Ord

namespace Library

/-- All libraries in order. -/
def all : List Library := [strings, bytes, reflect]

/-- The local name, which is also the import path. -/
def name : Library → String
  | strings => "strings"
  | bytes => "bytes"
  | reflect => "reflect"

/-- The capitalized name, for diagnostics. -/
def label : Library → String
  | strings => "Strings"
  | bytes => "Bytes"
  | reflect => "Reflect"

/-- The library of this name. -/
def ofName (name : String) : Except InputError Library :=
  match all.find? (·.name == name) with
  | some library => .ok library
  | none => .error (.unknownLibrary name)

end Library

end ImportPlan
