import ImportPlan.Document.Basic
import ImportPlan.Json.Basic

namespace ImportPlan

/-!
# Writing documents as JSON

Every declaration is written as an object with a member for each of its parts, present or not.

* `FieldType.toJson`, `Field.toJson`, `StructLike.toJson`, `EnumValue.toJson`, `Enum.toJson`,
  `Method.toJson`, `Service.toJson`, `Document.toJson`.
-/

/-! ### Types and fields -/

/-- A type without arguments is written by its name, any other as an object whose only member has
the type's name as its key. -/
def FieldType.toJson : FieldType → Json
  | .bool => .text "bool"
  | .byte => .text "byte"
  | .i16 => .text "i16"
  | .i32 => .text "i32"
  | .i64 => .text "i64"
  | .double => .text "double"
  | .string => .text "string"
  | .binary => .text "binary"
  | .list element => .object [("list", element.toJson)]
  | .set element => .object [("set", element.toJson)]
  | .map key value => .object [("map", .list [key.toJson, value.toJson])]
  | .named name => .object [("named", .text name)]

/-- A field as an object. -/
def Field.toJson (f : Field) : Json :=
  .object [("id", .number f.id.toInt), ("name", .text f.name), ("type", f.type.toJson)]

/-! ### Declarations -/

/-- A struct, a union or an exception as an object. -/
def StructLike.toJson (s : StructLike) : Json :=
  .object [("name", .text s.name), ("fields", .list (s.fields.map Field.toJson))]

/-- An enum constant as an object. -/
def EnumValue.toJson (v : EnumValue) : Json :=
  .object [("name", .text v.name), ("value", .number v.value.toInt)]

/-- An enum as an object. -/
def Enum.toJson (e : Enum) : Json :=
  .object [("name", .text e.name), ("values", .list (e.values.map EnumValue.toJson))]

/-- A function as an object. -/
def Method.toJson (m : Method) : Json := .object [("name", .text m.name)]

/-- A service as an object; without a base, null stands in its place. -/
def Service.toJson (s : Service) : Json :=
  .object [("name", .text s.name), ("extends", s.base.elim .null .text),
    ("functions", .list (s.methods.map Method.toJson))]

/-- A document as an object. -/
def Document.toJson (d : Document) : Json :=
  .object [("filename", .text d.filename), ("enums", .list (d.enums.map Enum.toJson)),
    ("structs", .list (d.structs.map StructLike.toJson)),
    ("unions", .list (d.unions.map StructLike.toJson)),
    ("exceptions", .list (d.exceptions.map StructLike.toJson)),
    ("services", .list (d.services.map Service.toJson))]

end ImportPlan
