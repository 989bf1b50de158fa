import ImportPlan.Document.Basic
import ImportPlan.Json.Decoder

namespace ImportPlan

open Json (Decoder Fault Key Outline Problem Record Source required)

/-!
# Reading documents from JSON

A declaration is an object with a member for each of its parts. Parts that are absent are empty,
except those of fields and of enum constants, which are required; unknown members are passed over.
A type is its name, or an object whose only member has the type's name as its key and the arguments
as its value.

* `FieldType.decoder`, `Field.decoder`, `StructLike.decoder`, `EnumValue.decoder`, `Enum.decoder`,
  `Method.decoder`, `Service.decoder`, `Document.decoder`.
-/

/-! ### Types -/

/-- The kinds of types, by the arguments that they take. -/
inductive FieldType.Kind
  | plain (type : FieldType)
  | list
  | set
  | map
  | named

namespace FieldType

/-- The kinds of types by name. -/
def kinds : List (String × Kind) :=
  [("bool", .plain .bool), ("byte", .plain .byte), ("i16", .plain .i16), ("i32", .plain .i32),
   ("i64", .plain .i64), ("double", .plain .double), ("string", .plain .string),
   ("binary", .plain .binary), ("list", .list), ("set", .set), ("map", .map), ("named", .named)]

/-- The kind of type with this name. -/
def kindOf (name : String) : Except Problem Kind :=
  match kinds.find? (·.1 == name) with
  | some (_, kind) => .ok kind
  | none => .error (.mismatch (.unknownVariant name (kinds.map (·.1))))

/-- The type that is given by its name alone. -/
def ofKind : Kind → Except Problem FieldType
  | .plain type => .ok type
  | .list | .set | .named => .error (.mismatch (.invalidType .unitVariant "newtype variant"))
  | .map => .error (.mismatch (.invalidType .unitVariant "tuple variant"))

/-- The problem of what is neither a text nor an object. In a text it starts no type at all. -/
def noType (source : Source) (o : Outline) : Problem :=
  match source with
  | .text _ => .malformed
  | .value => o.unexpected "string or map"

/-! ### Arguments -/

/-- The problem of an object that has any other number of members than one. -/
def noSingleKey : Problem := .mismatch (.invalidValue .object "map with a single key")

/-- The problem of an object without members. -/
def noMember (source : Source) (stop : Option Fault) : Problem :=
  match source with
  | .text _ => .fault (stop.getD .malformed)
  | .value => noSingleKey

/-- Refuses further members of a value; those of a text have not been met yet. -/
def checkSingle {α : Type} (source : Source) (rest : List α) : Except Problem Unit :=
  match source, rest with
  | .value, _ :: _ => .error noSingleKey
  | _, _ => .ok ()

/-- What a reader expects of the arguments of a map type. -/
def mapExpected : String := "tuple variant Type::Map"

/-- The problem of what is no list where the arguments of a map type are due. -/
def noPair (source : Source) (o : Outline) : Problem :=
  o.unexpected <|
    match source with
    | .text _ => mapExpected
    | .value => "tuple variant"

/-- The problem of a map type with too few arguments. -/
def tooFewArguments (length : Nat) : Option Fault → Problem
  | some fault => .fault fault
  | none => .mismatch (.invalidLength length (mapExpected ++ " with 2 elements"))

/-- The problem of a map type without arguments; an empty list that is held as a whole counts as
null. -/
def noArguments (source : Source) (stop : Option Fault) : Problem :=
  match source with
  | .text _ => tooFewArguments 0 stop
  | .value => .mismatch (.invalidType (.scalar .null) mapExpected)

mutual

/-- Reads a type. -/
def decoder (source : Source) : Outline → Except Problem FieldType
  | .absent fault => .error (.fault fault)
  | .text ⟨.ok name, _⟩ => do ofKind (← kindOf name)
  | .text ⟨.error fault, _⟩ => .error (.fault fault)
  | .object members stop => source.enter fun inner => decodeMembers inner stop members
  | .scalar literal => .error (noType source (.scalar literal))
  | .list items stop => .error (noType source (.list items stop))
termination_by structural o => o

/-- Reads a type with arguments from the members of an object. -/
def decodeMembers (source : Source) (stop : Option Fault) :
    List (Key × Outline) → Except Problem FieldType
  | [] => .error (noMember source stop)
  | (key, value) :: rest => do
    checkSingle source rest
    let type ←
      match ← kindOf (← Decoder.key key), value with
      | .plain type, value => (fun _ => type) <$> Decoder.unit source value
      | .list, value => list <$> decoder source value
      | .set, value => set <$> decoder source value
      | .map, .list items stop => source.enter fun inner => decodePair inner stop items
      | .map, value => .error (noPair source value)
      | .named, value => named <$> Decoder.text source value
    source.checkEnd (rest.length + 1) rest stop
    return type
termination_by structural members => members

/-- Reads the two arguments of a map type. -/
def decodePair (source : Source) (stop : Option Fault) : List Outline → Except Problem FieldType
  | [] => .error (noArguments source stop)
  | [key] => do
    let _ ← decoder source key
    .error (tooFewArguments 1 stop)
  | key :: value :: rest => do
    let type ← map <$> decoder source key <*> decoder source value
    source.checkEnd (rest.length + 2) rest stop
    return type
termination_by structural items => items

end

end FieldType

/-! ### Fields -/

/-- The parts of a field that have been read. -/
structure Field.Slots where
  id : Option Int32 := none
  name : Option String := none
  type : Option FieldType := none

/-- Fields as records; all parts are required. -/
def Field.record : Record Field.Slots Field where
  name := "Field"
  columns :=
    [.ofSlot "id" (·.id) (fun x s => { s with id := some x }) Decoder.int32,
     .ofSlot "name" (·.name) (fun x s => { s with name := some x }) Decoder.text,
     .ofSlot "type" (·.type) (fun x s => { s with type := some x }) FieldType.decoder]
  unknown := .skipped
  hasDefaults := false
  start := {}
  finish s := do
    let id ← required "id" s.id
    let name ← required "name" s.name
    let type ← required "type" s.type
    return ⟨id, name, type⟩

/-- Reads a field. -/
def Field.decoder : Decoder Field := Field.record.decoder

/-! ### Declarations -/

/-- The parts of a struct-like declaration that have been read. -/
structure StructLike.Slots where
  name : Option String := none
  fields : Option (List Field) := none

/-- Struct-like declarations as records. -/
def StructLike.record : Record StructLike.Slots StructLike where
  name := "StructLike"
  columns :=
    [.ofSlot "name" (·.name) (fun x s => { s with name := some x }) Decoder.text,
     .ofSlot "fields" (·.fields) (fun x s => { s with fields := some x }) (.list Field.decoder)]
  unknown := .skipped
  hasDefaults := true
  start := {}
  finish s := .ok ⟨s.name.getD "", s.fields.getD []⟩

/-- Reads a struct, a union or an exception. -/
def StructLike.decoder : Decoder StructLike := StructLike.record.decoder

/-- The parts of an enum constant that have been read. -/
structure EnumValue.Slots where
  name : Option String := none
  value : Option Int64 := none

/-- Enum constants as records; both parts are required. -/
def EnumValue.record : Record EnumValue.Slots EnumValue where
  name := "EnumValue"
  columns :=
    [.ofSlot "name" (·.name) (fun x s => { s with name := some x }) Decoder.text,
     .ofSlot "value" (·.value) (fun x s => { s with value := some x }) Decoder.int64]
  unknown := .skipped
  hasDefaults := false
  start := {}
  finish s := do
    let name ← required "name" s.name
    let value ← required "value" s.value
    return ⟨name, value⟩

/-- Reads an enum constant. -/
def EnumValue.decoder : Decoder EnumValue := EnumValue.record.decoder

/-- The parts of an enum that have been read. -/
structure Enum.Slots where
  name : Option String := none
  values : Option (List EnumValue) := none

/-- Enums as records. -/
def Enum.record : Record Enum.Slots Enum where
  name := "Enum"
  columns :=
    [.ofSlot "name" (·.name) (fun x s => { s with name := some x }) Decoder.text,
     .ofSlot "values" (·.values) (fun x s => { s with values := some x })
      (.list EnumValue.decoder)]
  unknown := .skipped
  hasDefaults := true
  start := {}
  finish s := .ok ⟨s.name.getD "", s.values.getD []⟩

/-- Reads an enum. -/
def Enum.decoder : Decoder Enum := Enum.record.decoder

/-! ### Services -/

/-- The parts of a function that have been read. -/
structure Method.Slots where
  name : Option String := none

/-- Functions as records. -/
def Method.record : Record Method.Slots Method where
  name := "Function"
  columns := [.ofSlot "name" (·.name) (fun x s => { s with name := some x }) Decoder.text]
  unknown := .skipped
  hasDefaults := true
  start := {}
  finish s := .ok ⟨s.name.getD ""⟩

/-- Reads a function. -/
def Method.decoder : Decoder Method := Method.record.decoder

/-- The parts of a service that have been read. -/
structure Service.Slots where
  name : Option String := none
  base : Option (Option String) := none
  methods : Option (List Method) := none

/-- Services as records. -/
def Service.record : Record Service.Slots Service where
  name := "Service"
  columns :=
    [.ofSlot "name" (·.name) (fun x s => { s with name := some x }) Decoder.text,
     .ofSlot "extends" (·.base) (fun x s => { s with base := some x }) (.option Decoder.text),
     .ofSlot "functions" (·.methods) (fun x s => { s with methods := some x })
      (.list Method.decoder)]
  unknown := .skipped
  hasDefaults := true
  start := {}
  finish s := .ok ⟨s.name.getD "", s.base.getD none, s.methods.getD []⟩

/-- Reads a service. -/
def Service.decoder : Decoder Service := Service.record.decoder

/-! ### Documents -/

/-- The parts of a document that have been read. -/
structure Document.Slots where
  filename : Option String := none
  enums : Option (List Enum) := none
  structs : Option (List StructLike) := none
  unions : Option (List StructLike) := none
  exceptions : Option (List StructLike) := none
  services : Option (List Service) := none

/-- Documents as records. -/
def Document.record : Record Document.Slots Document where
  name := "Thrift"
  columns :=
    [.ofSlot "filename" (·.filename) (fun x s => { s with filename := some x }) Decoder.text,
     .ofSlot "enums" (·.enums) (fun x s => { s with enums := some x }) (.list Enum.decoder),
     .ofSlot "structs" (·.structs) (fun x s => { s with structs := some x })
      (.list StructLike.decoder),
     .ofSlot "unions" (·.unions) (fun x s => { s with unions := some x })
      (.list StructLike.decoder),
     .ofSlot "exceptions" (·.exceptions) (fun x s => { s with exceptions := some x })
      (.list StructLike.decoder),
     .ofSlot "services" (·.services) (fun x s => { s with services := some x })
      (.list Service.decoder)]
  unknown := .skipped
  hasDefaults := true
  start := {}
  finish s := .ok ⟨s.filename.getD "", s.enums.getD [], s.structs.getD [], s.unions.getD [],
    s.exceptions.getD [], s.services.getD []⟩

/-- Reads a document. -/
def Document.decoder : Decoder Document := Document.record.decoder

end ImportPlan
