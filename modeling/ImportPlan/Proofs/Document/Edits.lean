import ImportPlan.Document.Decode
import ImportPlan.Proofs.Json.Changes
import ImportPlan.Proofs.Json.Grammar

namespace ImportPlan

open Json (Column Decoder HasMember Key Outline Problem Record Source)

/-!
# Edits of documents

A document can be written in many ways. The order of members, members with unknown names and members
that hold their default make no difference, in any of the objects of a document. A member of a field
or of an enum constant has no default, and none of them may be left out.

* `Document.Kind`, `Document.Kind.members` — the objects of a document and their members.
* `Document.Change`, `Document.Loss`, `Document.Within` — edits of one object, at any place.
* `Document.Kind.fits` — the columns of records are those of the members.
* `Document.Change.turnsAt`, `Document.Loss.turnsAt`, `Document.Within.turnsAt` — what a reader
  makes of edits.
* `Document.parse_edited` — what becomes of the document that is read.
-/

namespace Document

/-! ### Objects and their members -/

/-- The objects of a document. -/
inductive Kind
  | document
  | enum
  | enumValue
  | structLike
  | field
  | service
  | function

/-- What a member holds. -/
inductive Content
  /-- A text, which is empty by default. -/
  | text
  /-- The name of a base or null, which is the default. -/
  | base
  /-- A list of objects, which is empty by default. -/
  | list (kind : Kind)
  /-- Something without a default. -/
  | required

/-- The members of an object. -/
def Kind.members : Kind → List (String × Content)
  | document => [("filename", .text), ("enums", .list .enum), ("structs", .list .structLike),
      ("unions", .list .structLike), ("exceptions", .list .structLike),
      ("services", .list .service)]
  | enum => [("name", .text), ("values", .list .enumValue)]
  | enumValue => [("name", .required), ("value", .required)]
  | structLike => [("name", .text), ("fields", .list .field)]
  | field => [("id", .required), ("name", .required), ("type", .required)]
  | service => [("name", .text), ("extends", .base), ("functions", .list .function)]
  | function => [("name", .text)]

/-- The value is the default of what a member holds. -/
def Content.IsDefault : Content → Outline → Prop
  | text, value => value.IsText ""
  | base, value => value.IsNull
  | list _, value => value = .list [] none
  | required, _ => False

/-! ### Edits -/

/-- Edits of an object that make no difference. -/
inductive Change : Kind → Outline → Outline → Prop
  | permuted {kind : Kind} {members members' : List (Key × Outline)} (h : members.Perm members') :
    Change kind (.object members none) (.object members' none)
  | inserted {kind : Kind} {before after : List (Key × Outline)} {key : Key} {value : Outline}
    {name : String} (hkey : key.Names name) (hunknown : ∀ m ∈ kind.members, m.1 ≠ name)
    (hvalue : value.IsWritten) :
    Change kind (.object (before ++ after) none) (.object (before ++ (key, value) :: after) none)
  | omitted {kind : Kind} {before after : List (Key × Outline)} {key : Key} {value : Outline}
    {name : String} {content : Content} (hkey : key.Names name)
    (hcontent : (name, content) ∈ kind.members) (hdefault : content.IsDefault value) :
    Change kind (.object (before ++ (key, value) :: after) none) (.object (before ++ after) none)

/-- A member without a default is left out of an object. -/
inductive Loss (name : String) : Kind → Outline → Outline → Prop
  | omitted {kind : Kind} {before after : List (Key × Outline)} {key : Key} {value : Outline}
    (hkey : key.Names name) (hcontent : (name, .required) ∈ kind.members) :
    Loss name kind (.object (before ++ (key, value) :: after) none) (.object (before ++ after) none)

/-- An edit of one of the objects inside of an object, or of that object itself. Objects may also be
written as lists, the members in their order. -/
inductive Within (edit : Kind → Outline → Outline → Prop) : Kind → Outline → Outline → Prop
  | here {kind : Kind} {o o' : Outline} (h : edit kind o o') : Within edit kind o o'
  | member {kind kind' : Kind} {before after : List (Key × Outline)} {key : Key}
    {items items' : List Outline} {o o' : Outline} {name : String} (hkey : key.Names name)
    (hcontent : (name, .list kind') ∈ kind.members) (h : Within edit kind' o o') :
    Within edit kind
      (.object (before ++ (key, .list (items ++ o :: items') none) :: after) none)
      (.object (before ++ (key, .list (items ++ o' :: items') none) :: after) none)
  | field {kind kind' : Kind} {before after items items' : List Outline} {o o' : Outline}
    {name : String} (hcontent : kind.members[before.length]? = some (name, .list kind'))
    (h : Within edit kind' o o') :
    Within edit kind (.list (before ++ .list (items ++ o :: items') none :: after) none)
      (.list (before ++ .list (items ++ o' :: items') none :: after) none)

/-! ### Records -/

namespace Kind

/-- What is read from an object. -/
def Value : Kind → Type
  | document => Document
  | enum => Enum
  | enumValue => EnumValue
  | structLike => StructLike
  | field => Field
  | service => Service
  | function => Method

/-- The parts of it that have been read. -/
def Slots : Kind → Type
  | document => Document.Slots
  | enum => Enum.Slots
  | enumValue => EnumValue.Slots
  | structLike => StructLike.Slots
  | field => Field.Slots
  | service => Service.Slots
  | function => Method.Slots

/-- The object as a record. -/
def record : (kind : Kind) → Record kind.Slots kind.Value
  | document => Document.record
  | enum => Enum.record
  | enumValue => EnumValue.record
  | structLike => StructLike.record
  | field => Field.record
  | service => Service.record
  | function => Method.record

/-- Reads the object. -/
def decoder (kind : Kind) : Decoder kind.Value := kind.record.decoder

/-- The column reads what the member holds. Without it the record is finished as with the default,
or, if there is none, not at all. -/
inductive Fits {σ α : Type} (r : Record σ α) : String × Content → Column σ → Prop
  | text {name : String} {get : σ → Option String} {set : String → σ → σ}
    (hfinish : ∀ s, get s = none → r.finish (set "" s) = r.finish s) :
    Fits r (name, .text) (.ofSlot name get set Decoder.text)
  | base {name : String} {get : σ → Option (Option String)} {set : Option String → σ → σ}
    (hfinish : ∀ s, get s = none → r.finish (set none s) = r.finish s) :
    Fits r (name, .base) (.ofSlot name get set (.option Decoder.text))
  | list (kind : Kind) {name : String} {get : σ → Option (List kind.Value)}
    {set : List kind.Value → σ → σ}
    (hfinish : ∀ s, get s = none → r.finish (set [] s) = r.finish s) :
    Fits r (name, .list kind) (.ofSlot name get set (.list kind.decoder))
  | required {β : Type} {name : String} {get : σ → Option β} {set : β → σ → σ} {d : Decoder β}
    (hfinish : ∀ b s a, get s = none → r.finish (set b s) = .ok a →
      r.finish s = .error (.mismatch (.missingField name))) :
    Fits r (name, .required) (.ofSlot name get set d)

/-- The columns of a field: the first one that is missing is reported. -/
theorem fits_field : List.Forall₂ (Fits Field.record) field.members Field.record.columns := by
  refine .cons (.required ?_) (.cons (.required ?_) (.cons (.required ?_) .nil))
  -- where an earlier one is missing too, the field would not be finished with this one either
  · rintro b ⟨_, name, type⟩ a rfl h
    rfl
  · rintro b ⟨_ | id, _, type⟩ a rfl h
    · cases h
    · rfl
  · rintro b ⟨_ | id, _ | name, _⟩ a rfl h
    · cases h
    · cases h
    · cases h
    · rfl

/-- The columns of an enum constant. -/
theorem fits_enumValue :
    List.Forall₂ (Fits EnumValue.record) enumValue.members EnumValue.record.columns := by
  refine .cons (.required ?_) (.cons (.required ?_) .nil)
  · rintro b ⟨_, value⟩ a rfl h
    rfl
  · rintro b ⟨_ | name, _⟩ a rfl h
    · cases h
    · rfl

/-- **The columns of the records are those of the members.** -/
theorem fits (kind : Kind) : List.Forall₂ (Fits kind.record) kind.members kind.record.columns := by
  cases kind with
  | document =>
    refine .cons (.text ?_) (.cons (.list .enum ?_) (.cons (.list .structLike ?_)
      (.cons (.list .structLike ?_) (.cons (.list .structLike ?_)
      (.cons (.list .service ?_) .nil)))))
    all_goals
      rintro ⟨⟩ rfl
      rfl
  | enum =>
    refine .cons (.text ?_) (.cons (.list .enumValue ?_) .nil)
    all_goals
      rintro ⟨⟩ rfl
      rfl
  | enumValue => exact fits_enumValue
  | structLike =>
    refine .cons (.text ?_) (.cons (.list .field ?_) .nil)
    all_goals
      rintro ⟨⟩ rfl
      rfl
  | field => exact fits_field
  | service =>
    refine .cons (.text ?_) (.cons (.base ?_) (.cons (.list .function ?_) .nil))
    all_goals
      rintro ⟨⟩ rfl
      rfl
  | function =>
    refine .cons (.text ?_) .nil
    rintro ⟨⟩ rfl
    rfl

/-- Unknown members are passed over. -/
theorem unknown_eq (kind : Kind) : kind.record.unknown = .skipped := by
  cases kind <;> rfl

/-- The columns of the records do not interfere. -/
theorem isLawful (kind : Kind) : kind.record.IsLawful := by
  have hrecords : Document.record.IsLawful ∧ Enum.record.IsLawful ∧ EnumValue.record.IsLawful ∧
      StructLike.record.IsLawful ∧ Field.record.IsLawful ∧ Service.record.IsLawful ∧
      Method.record.IsLawful := by
    and_intros
    all_goals
      constructor
      all_goals
        simp only [Document.record, Enum.record, EnumValue.record, StructLike.record, Field.record,
          Service.record, Method.record, List.forall_mem_cons, List.pairwise_cons]
        and_intros
    all_goals first
      | exact Column.ofSlot_isSet fun _ _ => rfl
      | exact .ofSlot (by decide) (fun _ _ => rfl) (fun _ _ => rfl) fun _ _ _ => rfl
      | exact List.forall_mem_nil _
      | exact .nil
  obtain ⟨hdocument, henum, henumValue, hstructLike, hfield, hservice, hfunction⟩ := hrecords
  cases kind
  exacts [hdocument, henum, henumValue, hstructLike, hfield, hservice, hfunction]

variable {σ α : Type} {r : Record σ α} {c : Column σ} {name : String} {content : Content}
  {source : Source} {value : Outline} {s : σ} {u : σ → σ}

theorem Fits.name_eq {m : String × Content} (h : Fits r m c) : c.name = m.1 := by
  cases h <;> rfl

/-- Without a member that holds its default the record is finished in the same way. -/
theorem Fits.finish_eq (h : Fits r (name, content) c) (hdefault : content.IsDefault value)
    (hread : c.read source value = .ok u) (hunset : c.isSet s = false) :
    r.finish (u s) = r.finish s := by
  cases h with
  | text hfinish =>
    obtain ⟨b, hb, rfl⟩ := Column.gives_ofSlot_iff.1 hread
    rw [Json.Decoder.text_eq_ok_iff.2 hdefault, Except.ok.injEq] at hb
    rw [← hb]
    exact hfinish s (Option.not_isSome_iff_eq_none.1 (Bool.eq_false_iff.1 hunset))
  | base hfinish =>
    obtain ⟨b, hb, rfl⟩ := Column.gives_ofSlot_iff.1 hread
    rw [(Json.Decoder.optionText_eq_ok_iff source).2 (.inl ⟨rfl, hdefault⟩), Except.ok.injEq] at hb
    rw [← hb]
    exact hfinish s (Option.not_isSome_iff_eq_none.1 (Bool.eq_false_iff.1 hunset))
  | list kind hfinish =>
    obtain ⟨b, hb, rfl⟩ := Column.gives_ofSlot_iff.1 hread
    obtain rfl : value = .list [] none := hdefault
    obtain rfl : b = [] := by
      obtain (_ | depth) | _ := source <;> cases hb
      all_goals rfl
    exact hfinish s (Option.not_isSome_iff_eq_none.1 (Bool.eq_false_iff.1 hunset))
  | required => cases hdefault

/-- Without a member that has no default the record is not finished. -/
theorem Fits.finish_eq_error (h : Fits r (name, .required) c) (hread : c.read source value = .ok u)
    (hunset : c.isSet s = false) {a : α} (hfinish : r.finish (u s) = .ok a) :
    r.finish s = .error (.mismatch (.missingField name)) := by
  cases h with
  | required hmissing =>
    obtain ⟨b, -, rfl⟩ := Column.gives_ofSlot_iff.1 hread
    exact hmissing b s a (Option.not_isSome_iff_eq_none.1 (Bool.eq_false_iff.1 hunset)) hfinish

/-- A member has a column of its name that fits it. -/
theorem exists_column {kind : Kind} (h : (name, content) ∈ kind.members) :
    ∃ c ∈ kind.record.columns, c.name = name ∧ Fits kind.record (name, content) c := by
  obtain ⟨c, hc, hfits⟩ := exists_of_forall₂ kind.fits h
  exact ⟨c, hc, hfits.name_eq, hfits⟩

/-- No column has a name that no member has. -/
theorem name_ne_of_unknown {kind : Kind} (hunknown : ∀ m ∈ kind.members, m.1 ≠ name) :
    ∀ c ∈ kind.record.columns, c.name ≠ name := by
  intro c hc
  obtain ⟨m, hm, hfits⟩ := exists_of_forall₂ kind.fits.flip hc
  rw [hfits.name_eq]
  exact hunknown m hm

end Kind

/-! ### What readers make of edits -/

variable {kind : Kind} {o o' : Outline} {name : String}

/-- **Edits that make no difference make none.** -/
theorem Change.turnsAt (h : Change kind o o') : kind.decoder.TurnsAt none o o' := by
  cases h with
  | permuted hperm => exact Record.turnsAt_of_perm kind.isLawful hperm
  | inserted hkey hunknown hvalue =>
    exact Record.turnsAt_of_unknown kind.isLawful kind.unknown_eq hkey
      (Kind.name_ne_of_unknown hunknown) (Json.Outline.skip_of_isWritten hvalue)
  | omitted hkey hcontent hdefault =>
    obtain ⟨c, hc, rfl, hfits⟩ := Kind.exists_column hcontent
    refine Record.turnsAt_of_removed kind.isLawful hc hkey ?_
    intro source u s a hread hunset hfinish
    rw [← hfits.finish_eq hdefault hread hunset]
    exact hfinish

/-- **A member without a default is missed.** -/
theorem Loss.turnsAt (h : Loss name kind o o') :
    kind.decoder.TurnsAt (some (.mismatch (.missingField name))) o o' := by
  cases h with
  | omitted hkey hcontent =>
    obtain ⟨c, hc, rfl, hfits⟩ := Kind.exists_column hcontent
    exact Record.turnsAt_of_removed kind.isLawful hc hkey fun source u s a hread hunset hfinish =>
      hfits.finish_eq_error hread hunset hfinish

/-- **What is made of an edit of an object, is made of it inside of others.** -/
theorem Within.turnsAt {edit : Kind → Outline → Outline → Prop} {outcome : Option Problem}
    (hedit : ∀ {kind o o'}, edit kind o o' → kind.decoder.TurnsAt outcome o o')
    (h : Within edit kind o o') : kind.decoder.TurnsAt outcome o o' := by
  -- the induction goes inside, through lists of objects in members and in fields
  induction h with
  | here h => exact hedit h
  | @member kind kind' before after key items items' o o' name hkey hcontent h ih =>
    obtain ⟨c, hc, -, hfits⟩ := Kind.exists_column hcontent
    cases hfits with
    | list => exact Record.turnsAt_member hc kind.isLawful hkey ((ih.list items items' none).slot)
  | @field kind kind' before after items items' o o' name hcontent h ih =>
    obtain ⟨c, hc, hfits⟩ := exists_getElem?_of_forall₂ kind.fits hcontent
    cases hfits with
    | list => exact Record.turnsAt_field hc ((ih.list items items' none).slot)

/-- Any number of edits that make no difference make none. -/
theorem turnsAt_of_changes (h : Relation.ReflTransGen (Within Change kind) o o') :
    kind.decoder.TurnsAt none o o' := by
  induction h with
  | refl => exact fun _ _ hread => hread
  | tail _ hedit ih =>
    exact fun source d hread => hedit.turnsAt Change.turnsAt source d (ih source d hread)

/-- **Documents do not depend on how they are written.** -/
theorem parse_edited (o : Outline) (text : String) (d : Document) (htext : o.WrittenAs text)
    (hread : decoder.parse text = .ok d) :
    (∀ o' text', Relation.ReflTransGen (Within Change .document) o o' → o'.WrittenAs text' →
      decoder.parse text' = .ok d) ∧
      ∀ name o₁ o' text', Relation.ReflTransGen (Within Change .document) o o₁ →
        Within (Loss name) .document o₁ o' → o'.WrittenAs text' →
          decoder.parse text' = .error (.mismatch (.missingField name)) := by
  rw [Outline.parse_of_writtenAs htext] at hread
  refine ⟨fun o' text' hedits htext' => ?_, fun name o₁ o' text' hedits hloss htext' => ?_⟩
  · rw [Outline.parse_of_writtenAs htext']
    exact turnsAt_of_changes hedits _ d hread
  · rw [Outline.parse_of_writtenAs htext']
    exact hloss.turnsAt Loss.turnsAt _ d (turnsAt_of_changes hedits _ d hread)

/-- An empty list is left out, a note is added to a constant, and two members change their places;
then the value of the constant is left out. -/
theorem parse_edited_of_note :
    let enums (constant : List (String × Json)) : String × Json := ("enums", .list
      [.object [("name", .text "E"), ("values", .list [.object constant])]])
    let note : String × Json := ("note", .object [("x", .list [.null])])
    let plain := Json.object [("filename", .text "a.thrift"),
      enums [("name", .text "A"), ("value", .number 1)], ("services", .list [])]
    let edited := Json.object [enums [note, ("name", .text "A"), ("value", .number 1)],
      ("filename", .text "a.thrift")]
    let lost := Json.object [enums [note, ("name", .text "A")], ("filename", .text "a.thrift")]
    let d := { empty "a.thrift" with enums := [⟨"E", [⟨"A", 1⟩]⟩] }
    plain.outline.WrittenAs plain.render ∧ decoder.parse plain.render = .ok d ∧
      Relation.ReflTransGen (Within Change .document) plain.outline edited.outline ∧
      decoder.parse edited.render = .ok d ∧
      Within (Loss "value") .document edited.outline lost.outline ∧
      decoder.parse lost.render = .error (.mismatch (.missingField "value")) := by
  intro enums note plain edited lost d
  have hwritten : ∀ j : Json, j.outline.WrittenAs j.render :=
    fun j => Json.outline_writtenAs (Json.writtenAs_render j)
  have hread : decoder.parse plain.render = .ok d := by decide +kernel
  -- an edit of the constant is an edit of the document
  have hconstant : ∀ {edit : Kind → Outline → Outline → Prop} {before after : List (String × Json)}
      {constant constant' : List (String × Json)},
      edit .enumValue (Json.object constant).outline (Json.object constant').outline →
      Within edit .document
        (.object (Json.outlineMembers before ++
          Json.outlineMembers (enums constant :: after)) none)
        (.object (Json.outlineMembers before ++
          Json.outlineMembers (enums constant' :: after)) none) := by
    intro edit before after constant constant' h
    have henum : Within edit .enum
        (Json.object [("name", .text "E"), ("values", .list [.object constant])]).outline
        (Json.object [("name", .text "E"), ("values", .list [.object constant'])]).outline :=
      @Within.member edit .enum .enumValue [_] [] _ [] [] _ _ "values" (.text _ _)
        (by simp [Kind.members]) (.here h)
    exact @Within.member edit .document .enum _ _ _ [] [] _ _ "enums" (.text _ _)
      (by simp [Kind.members]) henum
  let constant : List (String × Json) := [("name", .text "A"), ("value", .number 1)]
  let filename : String × Json := ("filename", .text "a.thrift")
  have hservices : Within Change .document plain.outline
      (Json.object [filename, enums constant]).outline :=
    .here (@Change.omitted .document (Json.outlineMembers [filename, enums constant]) [] _ _
      "services" (.list .service) (.text _ _) (by simp [Kind.members]) rfl)
  have hnote : Within Change .document (Json.object [filename, enums constant]).outline
      (Json.object [filename, enums (note :: constant)]).outline := by
    refine @hconstant Change [filename] [] constant (note :: constant) ?_
    exact @Change.inserted .enumValue [] (Json.outlineMembers constant) _ _ "note" (.text _ _)
      (by decide) ⟨_, hwritten _⟩
  have hswap : Within Change .document (Json.object [filename, enums (note :: constant)]).outline
      edited.outline :=
    .here (.permuted (.swap _ _ []))
  have hedits := ((Relation.ReflTransGen.single hservices).tail hnote).tail hswap
  have hloss : Within (Loss "value") .document edited.outline lost.outline := by
    refine @hconstant (Loss "value") [] [filename] (note :: constant)
      [note, ("name", .text "A")] ?_
    exact @Loss.omitted "value" .enumValue (Json.outlineMembers [note, ("name", .text "A")]) [] _ _
      (.text _ _) (by simp [Kind.members])
  obtain ⟨hsame, hmissed⟩ := parse_edited plain.outline plain.render d (hwritten plain) hread
  exact ⟨hwritten plain, hread, hedits, hsame _ _ hedits (hwritten edited), hloss,
    hmissed _ _ _ _ hedits hloss (hwritten lost)⟩

end Document

end ImportPlan
