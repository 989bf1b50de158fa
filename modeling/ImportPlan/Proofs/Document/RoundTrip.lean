import ImportPlan.Document.Decode
import ImportPlan.Document.Encode
import ImportPlan.Proofs.Json.Reads

namespace ImportPlan

open Json

/-!
# Documents survive writing and reading

Every declaration is read from its JSON form member by member, and a type argument by argument. So
nothing of a document is lost in the form, and no two documents share one.

* `FieldType.reads_toJson` — types, by induction over their arguments.
* `Field.reads_toJson`, `StructLike.reads_toJson`, `EnumValue.reads_toJson`, `Enum.reads_toJson`,
  `Method.reads_toJson`, `Service.reads_toJson`, `Document.reads_toJson` — what is declared, each
  from the parts before it.
* `Document.toJson_read_back` — a document is read from its text and from its value, and no other
  document has the same text.
-/

/-! ### Types -/

namespace FieldType

/-- A type with arguments is read from its only member. -/
theorem reads_ofMember {name : String} {value : Json} {type : FieldType}
    (h : ∀ source : Source, source.Admits (max value.depth 0) →
      decodeMembers source none [(.text (.ofValue name), value.outline)] = .ok type) :
    Reads FieldType.decoder (.object [(name, value)]) type := by
  intro source hsource
  obtain ⟨inner, hinner, henter⟩ := Source.exists_enter_eq hsource
  simp only [FieldType.decoder, outline, outlineMembers, henter]
  exact h inner hinner

variable {source : Source} {value : Outline}

/-- What the only member of an object comes to is the type, as nothing is left to be refused. -/
theorem decodeMembers_of_eq {member : Key × Outline} {read : Except Problem FieldType}
    {type : FieldType}
    (hmember : decodeMembers source none [member] = read >>= fun type => pure type)
    (h : read = .ok type) : decodeMembers source none [member] = .ok type := by
  rw [hmember, h]
  rfl

-- Which kind of type a key names can be computed, for texts and for values apart.

theorem decodeMembers_list {element : FieldType} (h : decoder source value = .ok element) :
    decodeMembers source none [(.text (.ofValue "list"), value)] = .ok (.list element) := by
  have hmember : decodeMembers source none [(.text (.ofValue "list"), value)] =
      list <$> decoder source value >>= fun type => pure type := by
    cases source <;> rfl
  exact decodeMembers_of_eq hmember (by rw [h]; rfl)

theorem decodeMembers_set {element : FieldType} (h : decoder source value = .ok element) :
    decodeMembers source none [(.text (.ofValue "set"), value)] = .ok (.set element) := by
  have hmember : decodeMembers source none [(.text (.ofValue "set"), value)] =
      set <$> decoder source value >>= fun type => pure type := by
    cases source <;> rfl
  exact decodeMembers_of_eq hmember (by rw [h]; rfl)

theorem decodeMembers_map {items : List Outline} {type : FieldType}
    (h : source.enter (fun inner => decodePair inner none items) = .ok type) :
    decodeMembers source none [(.text (.ofValue "map"), .list items none)] = .ok type := by
  have hmember : decodeMembers source none [(.text (.ofValue "map"), .list items none)] =
      source.enter (fun inner => decodePair inner none items) >>= fun type => pure type := by
    cases source <;> rfl
  exact decodeMembers_of_eq hmember h

/-- The two arguments of a map type are read one after the other. -/
theorem decodePair_eq {value' : Outline} {key type : FieldType}
    (hkey : decoder source value = .ok key) (htype : decoder source value' = .ok type) :
    decodePair source none [value, value'] = .ok (.map key type) := by
  have hpair : decodePair source none [value, value'] =
      map <$> decoder source value <*> decoder source value' >>= fun type => pure type := by
    cases source <;> rfl
  rw [hpair, hkey, htype]
  rfl

/-- **Types are read from their JSON form**, however deep they nest. -/
theorem reads_toJson (t : FieldType) : Reads FieldType.decoder t.toJson t := by
  induction t with
  | bool | byte | i16 | i32 | i64 | double | string | binary => exact fun _ _ => rfl
  | list element ih =>
    refine reads_ofMember fun source hsource => decodeMembers_list ?_
    exact ih source (hsource.mono (Nat.le_max_left _ _))
  | set element ih =>
    refine reads_ofMember fun source hsource => decodeMembers_set ?_
    exact ih source (hsource.mono (Nat.le_max_left _ _))
  | map key value ihkey ihvalue =>
    refine reads_ofMember fun source hsource => decodeMembers_map ?_
    obtain ⟨inner, hinner, henter⟩ := Source.exists_enter_eq (hsource.mono (Nat.le_max_left _ _))
    rw [henter]
    have hvalues := hinner.mono (Nat.le_max_right key.toJson.depth _)
    exact decodePair_eq (ihkey inner (hinner.mono (Nat.le_max_left _ _)))
      (ihvalue inner (hvalues.mono (Nat.le_max_left _ _)))
  | named name =>
    refine reads_ofMember fun source _ => ?_
    cases source <;> rfl

end FieldType

/-! ### Declarations -/

/-- Fields are read from their JSON form. -/
theorem Field.reads_toJson (f : Field) : Reads Field.decoder f.toJson f := by
  have hfills : Field.record.Fills {}
      [("id", .number f.id.toInt), ("name", .text f.name), ("type", f.type.toJson)]
      ⟨some f.id, some f.name, some f.type⟩ :=
    .slot rfl rfl (reads_int32 f.id) <| .slot rfl rfl (reads_text f.name) <|
      .slot rfl rfl f.type.reads_toJson <| .nil _
  exact Record.reads hfills rfl

/-- Structs, unions and exceptions are read from their JSON form. -/
theorem StructLike.reads_toJson (s : StructLike) : Reads StructLike.decoder s.toJson s := by
  have hfills : StructLike.record.Fills {}
      [("name", .text s.name), ("fields", .list (s.fields.map Field.toJson))]
      ⟨some s.name, some s.fields⟩ :=
    .slot rfl rfl (reads_text s.name) <|
      .slot rfl rfl (reads_list Field.reads_toJson s.fields) <| .nil _
  exact Record.reads hfills rfl

/-- Enum constants are read from their JSON form. -/
theorem EnumValue.reads_toJson (v : EnumValue) : Reads EnumValue.decoder v.toJson v := by
  have hfills : EnumValue.record.Fills {}
      [("name", .text v.name), ("value", .number v.value.toInt)]
      ⟨some v.name, some v.value⟩ :=
    .slot rfl rfl (reads_text v.name) <| .slot rfl rfl (reads_int64 v.value) <| .nil _
  exact Record.reads hfills rfl

/-- Enums are read from their JSON form. -/
theorem Enum.reads_toJson (e : Enum) : Reads Enum.decoder e.toJson e := by
  have hfills : Enum.record.Fills {}
      [("name", .text e.name), ("values", .list (e.values.map EnumValue.toJson))]
      ⟨some e.name, some e.values⟩ :=
    .slot rfl rfl (reads_text e.name) <|
      .slot rfl rfl (reads_list EnumValue.reads_toJson e.values) <| .nil _
  exact Record.reads hfills rfl

/-- Functions are read from their JSON form. -/
theorem Method.reads_toJson (m : Method) : Reads Method.decoder m.toJson m := by
  have hfills : Method.record.Fills {} [("name", .text m.name)] ⟨some m.name⟩ :=
    .slot rfl rfl (reads_text m.name) <| .nil _
  exact Record.reads hfills rfl

/-- Services are read from their JSON form, with a base, with an empty one and without any. -/
theorem Service.reads_toJson (s : Service) : Reads Service.decoder s.toJson s := by
  have hbase : Reads (.option .text) (s.base.elim .null .text) s.base := by
    cases s.base with
    | none => exact reads_null Decoder.text
    | some base => exact reads_some_text base
  have hfills : Service.record.Fills {}
      [("name", .text s.name), ("extends", s.base.elim .null .text),
        ("functions", .list (s.methods.map Method.toJson))]
      ⟨some s.name, some s.base, some s.methods⟩ :=
    .slot rfl rfl (reads_text s.name) <| .slot rfl rfl hbase <|
      .slot rfl rfl (reads_list Method.reads_toJson s.methods) <| .nil _
  exact Record.reads hfills rfl

/-! ### Documents -/

namespace Document

/-- **Documents are read from their JSON form.** -/
theorem reads_toJson (d : Document) : Reads Document.decoder d.toJson d := by
  have hfills : Document.record.Fills {}
      [("filename", .text d.filename), ("enums", .list (d.enums.map Enum.toJson)),
        ("structs", .list (d.structs.map StructLike.toJson)),
        ("unions", .list (d.unions.map StructLike.toJson)),
        ("exceptions", .list (d.exceptions.map StructLike.toJson)),
        ("services", .list (d.services.map Service.toJson))]
      ⟨some d.filename, some d.enums, some d.structs, some d.unions, some d.exceptions,
        some d.services⟩ :=
    .slot rfl rfl (reads_text d.filename) <|
      .slot rfl rfl (reads_list Enum.reads_toJson d.enums) <|
      .slot rfl rfl (reads_list StructLike.reads_toJson d.structs) <|
      .slot rfl rfl (reads_list StructLike.reads_toJson d.unions) <|
      .slot rfl rfl (reads_list StructLike.reads_toJson d.exceptions) <|
      .slot rfl rfl (reads_list Service.reads_toJson d.services) <| .nil _
  exact Record.reads hfills rfl

/-- **Documents survive the way into a text and back.** A document is read from the text of its JSON
form, if that does not nest too deep, and from the form itself, however deep that nests. So no other
document has the same text. -/
theorem toJson_read_back (d : Document) :
    (d.toJson.depth ≤ maxDepth → Document.decoder.parse d.toJson.render = .ok d) ∧
      Document.decoder.readValue (Reading.ofText d.toJson.render).root = .ok d ∧
      ∀ d' : Document, d'.toJson.render = d.toJson.render → d' = d := by
  have hvalue : ∀ d : Document,
      Document.decoder.readValue (Reading.ofText d.toJson.render).root = .ok d :=
    fun d => d.reads_toJson.readValue
  refine ⟨fun hdepth => d.reads_toJson.parse hdepth, hvalue d, fun d' htext => ?_⟩
  have hd' := hvalue d'
  rw [htext, hvalue d] at hd'
  exact (Except.ok.inj hd').symm

/-- A document with characters that have to be escaped, the least numbers and nested types. -/
theorem toJson_read_back_of_nested :
    let d : Document := { filename := "a\t\"b\"\\\x01é.thrift"
                          enums := [⟨"Color", [⟨"RED", -9223372036854775808⟩]⟩]
                          structs := [⟨"", [⟨-2147483648, "m", .map (.list (.set .binary))
                            (.map .string (.named "list"))⟩]⟩]
                          unions := []
                          exceptions := [⟨"Failure", []⟩]
                          services := [⟨"S", some "", [⟨"f"⟩]⟩, ⟨"T", none, []⟩] }
    d.toJson.depth ≤ maxDepth ∧ Document.decoder.parse d.toJson.render = .ok d ∧
      Document.decoder.readValue (Reading.ofText d.toJson.render).root = .ok d ∧
      ∀ d' : Document, d'.toJson.render = d.toJson.render → d' = d := by
  intro d
  have hdepth : d.toJson.depth ≤ maxDepth := by decide
  have hback := toJson_read_back d
  exact ⟨hdepth, hback.1 hdepth, hback.2⟩

end Document

end ImportPlan
