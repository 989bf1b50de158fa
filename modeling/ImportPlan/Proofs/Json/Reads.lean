import ImportPlan.Json.Decoder
import ImportPlan.Proofs.Json.Grammar

namespace ImportPlan.Json

/-!
# Values that decoders read

A decoder reads a value from the outline of its JSON form, if the source lets it go as deep as the
form nests. What the decoders of the parts read, the decoders of lists and records put together.

* `Json.depth` — how many lists and objects are open at once in a value.
* `Source.Admits` — whether a source lets a reader go this deep.
* `Reads` — the decoder reads this from the JSON value.
* `reads_text`, `reads_null`, `reads_integer` — literals.
* `reads_list` — lists, if their items are read.
* `Record.Fills`, `Record.reads` — records, if their members fill the slots for what is read.
* `Reads.parseThen`, `Reads.parse`, `Reads.readValue` — whole texts and values.
-/

/-! ### Depth -/

mutual

/-- How many lists and objects are open at once in a value. -/
def depth : Json → Nat
  | null | bool _ | number _ | text _ => 0
  | list items => depthItems items + 1
  | object members => depthMembers members + 1
termination_by structural j => j

/-- The depth of the deepest item. -/
def depthItems : List Json → Nat
  | [] => 0
  | item :: items => max (depth item) (depthItems items)
termination_by structural items => items

/-- The depth of the deepest member. -/
def depthMembers : List (String × Json) → Nat
  | [] => 0
  | (_, value) :: members => max (depth value) (depthMembers members)
termination_by structural members => members

end

/-- The bound on the depth of members. -/
theorem depthMembers_le_iff {members : List (String × Json)} {n : Nat} :
    depthMembers members ≤ n ↔ ∀ m ∈ members, m.2.depth ≤ n := by
  induction members with
  | nil => simp [depthMembers]
  | cons m members ih => rw [depthMembers, Nat.max_le, ih, List.forall_mem_cons]

/-- Whether a source lets a reader go this deep. -/
def Source.Admits : Source → Nat → Prop
  | .text limit, depth => depth ≤ limit
  | .value, _ => True

namespace Source

theorem Admits.mono {source : Source} {n m : Nat} (h : source.Admits n) (hle : m ≤ n) :
    source.Admits m := by
  cases source with
  | text limit => exact Nat.le_trans hle h
  | value => trivial

/-- Going into a list or an object leaves room for its parts. -/
theorem exists_enter_eq {source : Source} {n : Nat} (h : source.Admits (n + 1)) :
    ∃ inner : Source, inner.Admits n ∧
      ∀ {α : Type} (f : Source → Except Problem α), source.enter f = f inner := by
  cases source with
  | value => exact ⟨.value, trivial, fun _ => rfl⟩
  | text limit =>
    cases limit with
    | zero => exact absurd h (Nat.not_succ_le_zero n)
    | succ limit => exact ⟨.text limit, Nat.le_of_succ_le_succ h, fun _ => rfl⟩

end Source

/-! ### Reading -/

variable {α β σ : Type}

/-- The decoder reads `a` from the JSON value. -/
def Reads (d : Decoder α) (j : Json) (a : α) : Prop :=
  ∀ source : Source, source.Admits j.depth → d source j.outline = .ok a

theorem reads_text (s : String) : Reads Decoder.text (.text s) s := fun _ _ => rfl

theorem reads_null (d : Decoder α) : Reads (.option d) .null none := fun _ _ => rfl

/-- A text is not taken for null. -/
theorem reads_some_text (s : String) : Reads (.option .text) (.text s) (some s) := fun _ _ => rfl

/-- Integers in the range of 64 bits that a decoder asks for. -/
theorem reads_integer {low high n : Int} (expected : String) (hlow : -9223372036854775808 ≤ low)
    (hhigh : high ≤ 9223372036854775807) (h : low ≤ n ∧ n ≤ high) :
    Reads (.integer low high expected) (.number n) n := by
  intro source _
  have hvalue := numberValue_ofInt (hlow.trans h.1) (h.2.trans hhigh)
  show Decoder.integer low high expected source (.scalar ⟨numberValue (.ofInt n), none⟩) = _
  rw [hvalue]
  exact if_pos h

theorem reads_int32 (n : Int32) : Reads Decoder.int32 (.number n.toInt) n := by
  intro source hsource
  have hrange : -2147483648 ≤ n.toInt ∧ n.toInt ≤ 2147483647 := ⟨n.le_toInt, n.toInt_le⟩
  have hinteger := reads_integer "i32" (by decide) (by decide) hrange source hsource
  rw [Decoder.int32, hinteger]
  show Except.ok (Int32.ofInt n.toInt) = _
  rw [Int32.ofInt_toInt]

theorem reads_int64 (n : Int64) : Reads Decoder.int64 (.number n.toInt) n := by
  intro source hsource
  have hrange : -9223372036854775808 ≤ n.toInt ∧ n.toInt ≤ 9223372036854775807 :=
    ⟨n.le_toInt, n.toInt_le⟩
  have hinteger := reads_integer "i64" (by decide) (by decide) hrange source hsource
  rw [Decoder.int64, hinteger]
  show Except.ok (Int64.ofInt n.toInt) = _
  rw [Int64.ofInt_toInt]

/-- Items are read one by one. -/
theorem mapM_outlineItems {d : Decoder α} {toJson : α → Json} (h : ∀ a, Reads d (toJson a) a)
    (as : List α) {source : Source} (hsource : source.Admits (depthItems (as.map toJson))) :
    (outlineItems (as.map toJson)).mapM (d source) = .ok as := by
  induction as with
  | nil => rfl
  | cons a as ih =>
    have ha := h a source (hsource.mono (Nat.le_max_left _ _))
    have has := ih (hsource.mono (Nat.le_max_right _ _))
    show List.mapM (d source) ((toJson a).outline :: outlineItems (as.map toJson)) = _
    rw [List.mapM_cons, ha, has]
    rfl

/-- Lists are read, if their items are. -/
theorem reads_list {d : Decoder α} {toJson : α → Json} (h : ∀ a, Reads d (toJson a) a)
    (as : List α) : Reads (.list d) (.list (as.map toJson)) as := by
  intro source hsource
  obtain ⟨inner, hinner, henter⟩ := Source.exists_enter_eq hsource
  have hitems := mapM_outlineItems h as hinner
  simp only [Decoder.list, outline, henter, hitems]
  rfl

/-! ### Records -/

namespace Record

/-- Reading the members in turn leads from one state of the slots to another: each member is the
first one for its column. -/
inductive Fills (r : Record σ α) : σ → List (String × Json) → σ → Prop
  | nil (s : σ) : Fills r s [] s
  | cons {s s' : σ} {name : String} {value : Json} {members : List (String × Json)}
    {column : Column σ} {update : σ → σ} (hcolumn : r.columns.find? (·.name == name) = some column)
    (hnew : column.isSet s = false) (hread : Reads column.read value update)
    (hrest : Fills r (update s) members s') : Fills r s ((name, value) :: members) s'

/-- A slot that is empty is filled by what the decoder of its column reads. -/
theorem Fills.slot {r : Record σ α} {s s' : σ} {name : String} {value : Json}
    {members : List (String × Json)} {get : σ → Option β} {set : β → σ → σ} {d : Decoder β} {b : β}
    (hcolumn : r.columns.find? (·.name == name) = some (.ofSlot name get set d))
    (hnew : (get s).isSome = false) (hread : Reads d value b)
    (hrest : r.Fills (set b s) members s') : r.Fills s ((name, value) :: members) s' := by
  refine .cons hcolumn hnew (fun source hsource => ?_) hrest
  show set <$> d source value.outline = _
  rw [hread source hsource]
  rfl

/-- Members that fill the slots are read one by one. -/
theorem Fills.foldlM_readMember {r : Record σ α} {s s' : σ} {members : List (String × Json)}
    (h : r.Fills s members s') {source : Source} (hsource : source.Admits (depthMembers members)) :
    (outlineMembers members).foldlM (r.readMember source) s = .ok s' := by
  induction h with
  | nil s => rfl
  | @cons s s' name value members column update hcolumn hnew hread hrest ih =>
    have hvalue := hread source (hsource.mono (Nat.le_max_left _ _))
    have hmember : r.readMember source s (.text (.ofValue name), value.outline) =
        .ok (update s) := by
      simp only [readMember, Decoder.key, Leaf.ofValue, bind, Except.bind, hcolumn, hnew, hvalue]
      rfl
    show List.foldlM _ _ ((.text (.ofValue name), value.outline) :: outlineMembers members) = _
    rw [List.foldlM_cons, hmember]
    exact ih (hsource.mono (Nat.le_max_right _ _))

/-- Records are read, if their members fill the slots. -/
theorem reads {r : Record σ α} {members : List (String × Json)} {s : σ} {a : α}
    (h : r.Fills r.start members s) (hfinish : r.finish s = .ok a) :
    Reads r.decoder (.object members) a := by
  intro source hsource
  obtain ⟨inner, hinner, henter⟩ := Source.exists_enter_eq hsource
  simp only [decoder, outline, henter, readObject, h.foldlM_readMember hinner]
  exact hfinish

end Record

/-! ### Texts and values -/

/-- What a decoder reads, it reads from every text of the value that does not nest too deep. -/
theorem Reads.parseThen {d : Decoder α} {j : Json} {a : α} (h : Reads d j a)
    (hdepth : j.depth ≤ maxDepth) {text : String} (htext : j.WrittenAs text)
    (accept : α → Except Problem β) : d.parseThen accept text = accept a := by
  rw [Outline.parseThen_of_writtenAs (outline_writtenAs htext), h (.text maxDepth) hdepth]
  rfl

/-- What a decoder reads, it reads from the text, if that does not nest too deep. -/
theorem Reads.parse {d : Decoder α} {j : Json} {a : α} (h : Reads d j a)
    (hdepth : j.depth ≤ maxDepth) : d.parse j.render = .ok a :=
  h.parseThen hdepth (writtenAs_render j) .ok

/-- What a decoder reads, it reads from the value, however deep that nests. -/
theorem Reads.readValue {d : Decoder α} {j : Json} {a : α} (h : Reads d j a) :
    d.readValue (Reading.ofText j.render).root = .ok a := by
  rw [Reading.ofText_of_writtenAs (writtenAs_render j)]
  exact h .value trivial

end ImportPlan.Json
