import ImportPlan.Json.Decoder
import ImportPlan.Proofs.Success

namespace ImportPlan.Json

/-!
# Values by their outlines

What a value is can be told by its outline, and decoders read just the values of their kind.

* `Outline.IsNull`, `Outline.IsBool`, `Outline.IsText`, `Outline.IsDictionary` — kinds of values.
* `HasMember`, `NamedAmong` — the members of an object and their names.
* `Decoder.bool_eq_ok_iff`, `Decoder.text_eq_ok_iff`, `Decoder.optionText_eq_ok_iff`,
  `Decoder.dictionaryText_eq_ok_iff` — what is read, and from which values.
-/

/-! ### Names -/

/-- The key is a text with this value. -/
inductive Key.Names : Key → String → Prop
  | text (name : String) (skip : Option Fault) : Names (.text ⟨.ok name, skip⟩) name

/-- A key is read as the name that it is. -/
theorem Key.names_iff {key : Key} {name : String} :
    key.Names name ↔ Decoder.key key = .ok name := by
  constructor
  · rintro ⟨⟩
    rfl
  · intro h
    match key, h with
    | .text ⟨.ok _, skip⟩, rfl => exact .text _ skip

theorem Key.Names.unique {key : Key} {name name' : String} (h : key.Names name)
    (h' : key.Names name') : name = name' := by
  cases h
  cases h'
  rfl

theorem Key.names_ofValue_iff {name name' : String} :
    Key.Names (.text (.ofValue name)) name' ↔ name = name' :=
  ⟨fun h => (Key.Names.text name none).unique h, fun h => h ▸ .text name none⟩

/-- The object has a member with this name and value. -/
def HasMember (members : List (Key × Outline)) (name : String) (value : Outline) : Prop :=
  ∃ key, (key, value) ∈ members ∧ key.Names name

theorem not_hasMember_nil {name : String} {value : Outline} : ¬ HasMember [] name value := by
  rintro ⟨key, hmem, -⟩
  exact absurd hmem List.not_mem_nil

theorem hasMember_cons {m : Key × Outline} {members : List (Key × Outline)} {name : String}
    {value : Outline} :
    HasMember (m :: members) name value ↔
      m.1.Names name ∧ m.2 = value ∨ HasMember members name value := by
  constructor
  · rintro ⟨key, hmem, hkey⟩
    rcases List.mem_cons.1 hmem with rfl | hrest
    · exact .inl ⟨hkey, rfl⟩
    · exact .inr ⟨key, hrest, hkey⟩
  · rintro (⟨hkey, rfl⟩ | ⟨key, hmem, hkey⟩)
    · exact ⟨m.1, List.mem_cons_self, hkey⟩
    · exact ⟨key, List.mem_cons_of_mem m hmem, hkey⟩

/-- The members have names, none of them twice, and all of them among these. -/
def NamedAmong (members : List (Key × Outline)) (allowed : List String) : Prop :=
  ∃ names, List.Forall₂ (fun m name => m.1.Names name) members names ∧ names.Nodup ∧
    ∀ name ∈ names, name ∈ allowed

/-- Members have the names that they are said to have. -/
theorem NamedAmong.mem_of_hasMember {members : List (Key × Outline)} {allowed : List String}
    (h : NamedAmong members allowed) {name : String} {value : Outline}
    (hmember : HasMember members name value) : name ∈ allowed := by
  obtain ⟨names, hnames, -, hallowed⟩ := h
  obtain ⟨key, hmem, hkey⟩ := hmember
  obtain ⟨name', hname', hkey'⟩ := exists_of_forall₂ hnames hmem
  rw [hkey.unique hkey']
  exact hallowed name' hname'

/-! ### Kinds of values -/

namespace Outline

/-- The value is null. -/
inductive IsNull : Outline → Prop
  | null (skip : Option Fault) : IsNull (.scalar ⟨.ok .null, skip⟩)

/-- The value is this boolean. -/
inductive IsBool : Outline → Bool → Prop
  | bool (b : Bool) (skip : Option Fault) : IsBool (.scalar ⟨.ok (.bool b), skip⟩) b

/-- The value is this text. -/
inductive IsText : Outline → String → Prop
  | text (s : String) (skip : Option Fault) : IsText (.text ⟨.ok s, skip⟩) s

/-- The value is an object of texts, with these names and texts in this order. -/
inductive IsDictionary : Outline → List (String × String) → Prop
  | object {members : List (Key × Outline)} {entries : List (String × String)}
    (h : List.Forall₂ (fun m e => m.1.Names e.1 ∧ m.2.IsText e.2) members entries) :
    IsDictionary (.object members none) entries

end Outline

/-! ### What decoders read -/

theorem checkFault_eq_ok_iff {fault : Option Fault} : checkFault fault = .ok () ↔ fault = none := by
  cases fault <;> simp [checkFault]

namespace Decoder

variable {source : Source} {o : Outline}

/-- Just booleans are read as such. -/
theorem bool_eq_ok_iff {b : Bool} : bool source o = .ok b ↔ o.IsBool b := by
  constructor
  · intro h
    unfold bool at h
    split at h
    · cases h
      exact .bool b _
    · cases h
  · rintro ⟨⟩
    rfl

/-- Just texts are read as such. -/
theorem text_eq_ok_iff {s : String} : text source o = .ok s ↔ o.IsText s := by
  constructor
  · intro h
    unfold text at h
    split at h
    · cases h
      exact .text s _
    · cases h
  · rintro ⟨⟩
    rfl

/-- Null is read as no text, and texts as such. -/
theorem optionText_eq_ok_iff (source : Source) {s? : Option String} :
    option text source o = .ok s? ↔ s? = none ∧ o.IsNull ∨ ∃ s, s? = some s ∧ o.IsText s := by
  constructor
  · intro h
    unfold option at h
    split at h
    · cases h
      exact .inl ⟨rfl, .null _⟩
    · -- all but null is left to the decoder of texts
      obtain ⟨s, hs, heq⟩ := bind_eq_ok_iff.1 ((map_eq_pure_bind _ _).symm.trans h)
      cases heq
      exact .inr ⟨s, rfl, text_eq_ok_iff.1 hs⟩
  · rintro (⟨rfl, ⟨⟩⟩ | ⟨s, rfl, ⟨⟩⟩)
    · rfl
    · rfl

/-- Just objects of texts are read as dictionaries, if the source lets a reader go into them. -/
theorem dictionaryText_eq_ok_iff (depth : Nat) {entries : List (String × String)} :
    dictionary text (.text (depth + 1)) o = .ok entries ↔ o.IsDictionary entries := by
  have hentry : ∀ (m : Key × Outline) (e : String × String),
      entry text (.text depth) m = .ok e ↔ m.1.Names e.1 ∧ m.2.IsText e.2 := by
    intro m e
    simp only [entry, bind_eq_ok_iff, ← Key.names_iff, text_eq_ok_iff]
    constructor
    · rintro ⟨name, hname, value, hvalue, heq⟩
      cases heq
      exact ⟨hname, hvalue⟩
    · rintro ⟨hname, hvalue⟩
      exact ⟨_, hname, _, hvalue, rfl⟩
  constructor
  · intro h
    unfold dictionary at h
    split at h
    · next members stop =>
      obtain ⟨entries', hentries, hrest⟩ := bind_eq_ok_iff.1 h
      obtain ⟨_, hstop, heq⟩ := bind_eq_ok_iff.1 hrest
      cases heq
      obtain rfl := checkFault_eq_ok_iff.1 hstop
      exact .object ((mapM_eq_ok_iff.1 hentries).imp fun m e => (hentry m e).1)
    · cases h
  · rintro ⟨hmembers⟩
    have hentries := mapM_eq_ok_iff.2 (hmembers.imp fun m e => (hentry m e).2)
    refine bind_eq_ok_iff.2 ⟨entries, hentries, rfl⟩

end Decoder

/-- An object of texts has its names and texts in one order only. -/
theorem Outline.IsDictionary.unique {o : Outline} {entries entries' : List (String × String)}
    (h : o.IsDictionary entries) (h' : o.IsDictionary entries') : entries = entries' := by
  rw [← Decoder.dictionaryText_eq_ok_iff 0] at h h'
  exact Except.ok.inj (h.symm.trans h')

end ImportPlan.Json
