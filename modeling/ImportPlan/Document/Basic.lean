import ImportPlan.Text.Quoted

namespace ImportPlan

/-!
# Documents

The part of an interface description that decides which packages the code generated from it imports:
declarations, their fields and the links between services.

* `FieldType`, `Field`, `StructLike`, `EnumValue`, `Enum`, `Method`, `Service`, `Document`.
* `Document.structLikes`, `Document.methodCount` — what the import rules look at.
* `FieldType.debugText` — a type on one line.
-/

/-! ### Types and declarations -/

/-- The type of a field. -/
inductive FieldType
  | bool
  | byte
  | i16
  | i32
  | i64
  | double
  | string
  | binary
  | list (element : FieldType)
  | set (element : FieldType)
  | map (key value : FieldType)
  /-- A declared type. -/
  | named (name : String)
  deriving DecidableEq, Repr

/-- A numbered field of a struct, a union or an exception. -/
structure Field where
  id : Int32
  name : String
  type : FieldType
  deriving DecidableEq, Repr

/-- A struct, a union or an exception. -/
structure StructLike where
  name : String
  fields : List Field
  deriving DecidableEq, Repr

/-- A named constant of an enum. -/
structure EnumValue where
  name : String
  value : Int64
  deriving DecidableEq, Repr

/-- An enum with its constants. -/
structure Enum where
  name : String
  values : List EnumValue
  deriving DecidableEq, Repr

/-- A function of a service. -/
structure Method where
  name : String
  deriving DecidableEq, Repr

/-- A service; an absent and an empty name of a base both mean that it extends nothing. -/
structure Service where
  name : String
  base : Option String
  methods : List Method
  deriving DecidableEq, Repr

/-- One file of declarations. -/
structure Document where
  filename : String
  enums : List Enum
  structs : List StructLike
  unions : List StructLike
  exceptions : List StructLike
  services : List Service
  deriving DecidableEq, Repr

/-! ### What the import rules look at -/

/-- Whether the service extends another one. -/
def Service.hasBase (s : Service) : Bool :=
  match s.base with
  | none | some "" => false
  | some _ => true

namespace Document

/-- The document that declares nothing. -/
def empty (filename : String) : Document := ⟨filename, [], [], [], [], []⟩

/-- Structs, unions and exceptions, in this order. -/
def structLikes (d : Document) : List StructLike := d.structs ++ d.unions ++ d.exceptions

/-- The number of structs, unions and exceptions. -/
def structLikeCount (d : Document) : Nat := d.structLikes.length

/-- The functions of all services in order. -/
def methods (d : Document) : List Method := d.services.flatMap (·.methods)

/-- The number of functions of all services. -/
def methodCount (d : Document) : Nat := d.methods.length

/-- Whether nothing is declared. -/
def isEmpty (d : Document) : Bool :=
  d.enums.isEmpty && d.structLikeCount == 0 && d.services.isEmpty

end Document

/-! ### Diagnostic text -/

/-- A type on one line, arguments in parentheses and declared names in quotes. -/
def FieldType.debugText : FieldType → String
  | .bool => "Bool"
  | .byte => "Byte"
  | .i16 => "I16"
  | .i32 => "I32"
  | .i64 => "I64"
  | .double => "Double"
  | .string => "String"
  | .binary => "Binary"
  | .list element => s!"List({element.debugText})"
  | .set element => s!"Set({element.debugText})"
  | .map key value => s!"Map({key.debugText}, {value.debugText})"
  | .named name => s!"Named({Text.quote name})"

end ImportPlan
