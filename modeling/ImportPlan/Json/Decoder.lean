import ImportPlan.Json.Outline

namespace ImportPlan.Json

/-!
# Decoders

A decoder reads a typed value from an outline. It meets the problems of the text in the order in
which they stand there, and the first one ends it. The outline is that of a text, or that of a value
that is already known to be JSON; what does not fit a type is described differently there, and only
a text is limited in how deep it nests.

* `Source` — what an outline is an outline of.
* `Decoder` — a reader of values.
* `Decoder.bool`, `Decoder.text`, `Decoder.integer`, `Decoder.option`, `Decoder.list`,
  `Decoder.dictionary` — decoders by the shape of the value.
* `Record`, `Record.decoder` — decoders of records, from an object or from a list of their fields.
* `Decoder.parse` — reads a whole text.
* `Decoder.readValue` — reads a value.
-/

/-- What an outline is an outline of. -/
inductive Source
  /-- A text that is read up to its first problem; so many nested lists and objects may still be
  entered. -/
  | text (depth : Nat)
  /-- A value that is held as a whole: its outline has no faults, and no object has a key twice. -/
  | value

/-- A reader of values. -/
abbrev Decoder (α : Type) := Source → Outline → Except Problem α

/-- How many nested lists and objects a text may have. -/
def maxDepth : Nat := 127

/-- The problem of a value of another kind than expected. -/
def Outline.unexpected (o : Outline) (expected : String) : Problem :=
  match o with
  | .absent fault => .fault fault
  | .scalar literal =>
    match literal.read with
    | .ok value => .mismatch (.invalidType (.scalar value) expected)
    | .error fault => .fault fault
  | .text literal =>
    match literal.read with
    | .ok value => .mismatch (.invalidType (.text value) expected)
    | .error fault => .fault fault
  | .list .. => .mismatch (.invalidType .list expected)
  | .object .. => .mismatch (.invalidType .object expected)

/-- Refuses a fault. -/
def checkFault : Option Fault → Except Problem Unit
  | none => .ok ()
  | some fault => .error (.fault fault)

namespace Source

/-- Goes into a list or an object. -/
def enter {α : Type} (s : Source) (inside : Source → Except Problem α) : Except Problem α :=
  match s with
  | text 0 => .error .malformed
  | text (depth + 1) => inside (text depth)
  | value => inside value

/-- Refuses the items of a list that are left over; it has `length` items in all. -/
def checkEnd {α : Type} (s : Source) (length : Nat) (rest : List α) (stop : Option Fault) :
    Except Problem Unit :=
  match s, rest with
  | _, [] => checkFault stop
  | text _, _ :: _ => .error .malformed
  | value, _ :: _ => .error (.mismatch (.invalidLength length "fewer elements in array"))

end Source

namespace Decoder

/-! ### Literals -/

/-- Reads null. -/
def unit : Decoder Unit := fun _ o =>
  match o with
  | .scalar ⟨.ok .null, _⟩ => .ok ()
  | o => .error (o.unexpected "unit")

/-- Reads a boolean. -/
def bool : Decoder Bool := fun _ o =>
  match o with
  | .scalar ⟨.ok (.bool b), _⟩ => .ok b
  | o => .error (o.unexpected "a boolean")

/-- Reads a text. -/
def text : Decoder String := fun _ o =>
  match o with
  | .text ⟨.ok s, _⟩ => .ok s
  | o => .error (o.unexpected "a string")

/-- Reads an integer from `low` to `high`. -/
def integer (low high : Int) (expected : String) : Decoder Int := fun _ o =>
  match o with
  | .scalar ⟨.ok (.integer n), _⟩ =>
    if low ≤ n ∧ n ≤ high then .ok n
    else .error (.mismatch (.invalidValue (.scalar (.integer n)) expected))
  | o => .error (o.unexpected expected)

/-- Reads an integer of 32 bits. -/
def int32 : Decoder Int32 := fun source o =>
  Int32.ofInt <$> integer (-2147483648) 2147483647 "i32" source o

/-- Reads an integer of 64 bits. -/
def int64 : Decoder Int64 := fun source o =>
  Int64.ofInt <$> integer (-9223372036854775808) 9223372036854775807 "i64" source o

/-- Reads null as nothing and all else by `d`. -/
def option {α : Type} (d : Decoder α) : Decoder (Option α) := fun source o =>
  match o with
  | .scalar ⟨.ok .null, _⟩ => .ok none
  | o => some <$> d source o

/-! ### Lists and dictionaries -/

/-- Reads a list whose items are read by `d`. -/
def list {α : Type} (d : Decoder α) : Decoder (List α) := fun source o =>
  match o with
  | .list items stop => source.enter fun inner => do
    let values ← items.mapM (d inner)
    checkFault stop
    return values
  | o => .error (o.unexpected "a sequence")

/-- Reads a key. -/
def key : Key → Except Problem String
  | .absent fault => .error (.fault fault)
  | .text ⟨.ok name, _⟩ => .ok name
  | .text ⟨.error fault, _⟩ => .error (.fault fault)

/-- Reads one member of a dictionary. -/
def entry {α : Type} (d : Decoder α) (source : Source) (member : Key × Outline) :
    Except Problem (String × α) := do
  let name ← key member.1
  let value ← d source member.2
  return (name, value)

/-- Reads an object with any keys; equal keys are all kept. -/
def dictionary {α : Type} (d : Decoder α) : Decoder (List (String × α)) := fun source o =>
  match o with
  | .object members stop => source.enter fun inner => do
    let entries ← members.mapM (entry d inner)
    checkFault stop
    return entries
  | o => .error (o.unexpected "a map")

end Decoder

/-! ### Records -/

/-- A field of a record; `σ` holds the values that have been read. -/
structure Column (σ : Type) where
  name : String
  isSet : σ → Bool
  read : Decoder (σ → σ)

/-- The field whose value is kept in a slot of `σ`. -/
def Column.ofSlot {σ α : Type} (name : String) (get : σ → Option α) (set : α → σ → σ)
    (d : Decoder α) : Column σ where
  name := name
  isSet s := (get s).isSome
  read source o := set <$> d source o

/-- What is done with a member that no field is named for. -/
inductive UnknownMembers
  | skipped
  | rejected

/-- How a record of type `α` is read. -/
structure Record (σ α : Type) where
  /-- The name of the record in problems. -/
  name : String
  columns : List (Column σ)
  unknown : UnknownMembers
  /-- Whether the list form may leave out fields at the end. -/
  hasDefaults : Bool
  start : σ
  finish : σ → Except Problem α

namespace Record

variable {σ α : Type}

/-- Reads one member of the object form; a member that comes twice is refused at its key. -/
def readMember (r : Record σ α) (source : Source) (s : σ) (member : Key × Outline) :
    Except Problem σ := do
  let name ← Decoder.key member.1
  match r.columns.find? (·.name == name), r.unknown with
  | some column, _ =>
    if column.isSet s then .error (.mismatch (.duplicateField name))
    else return (← column.read source member.2) s
  | none, .rejected => .error (.mismatch (.unknownField name (r.columns.map (·.name))))
  | none, .skipped => do
    checkFault member.2.skip
    return s

/-- Reads the object form. -/
def readObject (r : Record σ α) (members : List (Key × Outline)) (stop : Option Fault)
    (source : Source) : Except Problem α := do
  let s ← members.foldlM (r.readMember source) r.start
  checkFault stop
  r.finish s

/-- What a reader expects who finds too few fields in the list form. -/
def fieldsExpected (r : Record σ α) : String :=
  s!"struct {r.name} with {r.columns.length} elements"

/-- Reads the fields of the list form from the one with this index on. -/
def readFields (r : Record σ α) (source : Source) (stop : Option Fault) :
    Nat → List (Column σ) → List Outline → σ → Except Problem σ
  | index, [], items, s => do
    source.checkEnd (index + items.length) items stop
    return s
  | index, _ :: _, [], s => do
    checkFault stop
    if r.hasDefaults then return s
    else .error (.mismatch (.invalidLength index r.fieldsExpected))
  | index, column :: columns, item :: items, s => do
    let update ← column.read source item
    r.readFields source stop (index + 1) columns items (update s)

/-- Reads a record. -/
def decoder (r : Record σ α) : Decoder α := fun source o =>
  match o with
  | .object members stop => source.enter (r.readObject members stop)
  | .list items stop => source.enter fun inner => do
    r.finish (← r.readFields inner stop 0 r.columns items r.start)
  | o => .error (o.unexpected ("struct " ++ r.name))

end Record

/-- The value of a slot that has to be filled. -/
def required {α : Type} (name : String) : Option α → Except Problem α
  | some value => .ok value
  | none => .error (.mismatch (.missingField name))

/-! ### Texts and values -/

namespace Decoder

/-- Reads a whole text and accepts what was read by `accept`; only then comes what follows the
value. -/
def parseThen {α β : Type} (d : Decoder α) (accept : α → Except Problem β) (text : String) :
    Except Problem β := do
  let reading := Reading.ofText text
  let value ← d (.text maxDepth) reading.root
  let result ← accept value
  if reading.trailing then .error .malformed else return result

/-- Reads a whole text. -/
def parse {α : Type} (d : Decoder α) (text : String) : Except Problem α := d.parseThen .ok text

/-- Reads a value that is held as a whole. -/
def readValue {α : Type} (d : Decoder α) (o : Outline) : Except Problem α := d .value o

end Decoder

end ImportPlan.Json
