import ImportPlan.Proofs.Block.Contents
import ImportPlan.Proofs.Scope.Unique

namespace ImportPlan.Scope

/-!
# The map form of a scope

A scope is one list of bindings. The list stands for two maps, from names to ids in the order of
registration and from ids to names, which is how look-ups would have it. In this form a binding is
entered into the one map and then into the other, over whatever they hold, so that nothing in the
maps themselves keeps them in step. This file shows that the commands do, and that the two forms
cannot be told apart by their answers.

* `Indexed` — the two maps; `Indexed.bind` enters a binding into both.
* `Indexed.perform`, `Indexed.performAll` — commands carried out by look-ups in the maps.
* `Indexed.Holds` — the maps hold the bindings of a scope, and no others.
* `Indexed.Holds.reserve` — a reservation never meets a side that only one of the maps knows.
* `Indexed.Holds.performAll` — along every history maps and scope give the same answers, and the
  maps go on holding the bindings.
* `maps_inverse` — so the maps are inverse to each other, and their bindings are only ever appended.
-/

/-! ### Two maps -/

/-- The map form of a scope: from names to ids, in the order of registration, and from ids to
names. -/
structure Indexed where
  idOfName : Table
  nameOfId : Table
  rename : Renaming

namespace Indexed

/-- The maps without bindings. -/
def empty (ρ : Renaming) : Indexed := ⟨.empty, .empty, ρ⟩

/-- The bindings in the order of registration. -/
def bindings (m : Indexed) : List Binding := m.idOfName.entries.map fun e => ⟨e.1, e.2⟩

/-- Enters a binding into both maps, over whatever they hold: a name that is entered again would
leave its first id behind. -/
def bind (m : Indexed) (name id : String) : Indexed :=
  { m with nameOfId := m.nameOfId.insert id name, idOfName := m.idOfName.insert name id }

/-- Whether no id owns `name`. -/
def isFree (m : Indexed) (name : String) : Bool := !m.idOfName.contains name

/-- The renamed candidates for `name` that have to be tried. -/
def candidates (m : Indexed) (name : String) : List String :=
  (List.range (m.idOfName.size + 1)).map fun k => m.rename name (k + 2)

/-- `name` if it is free, else its first free renamed candidate. -/
def freeName (m : Indexed) (name : String) : String :=
  if m.isFree name then name else ((m.candidates name).find? m.isFree).getD name

/-- Binds `id` to the first free candidate for `name`, unless it owns a name. -/
def add (m : Indexed) (name id : String) : Indexed × String :=
  match m.nameOfId.get? id with
  | some owned => (m, owned)
  | none => (m.bind (m.freeName name) id, m.freeName name)

/-- Binds `id` to exactly `name`, unless one of the two is bound to something else. It is also bound
where only one of the two maps knows its side. -/
def reserve (m : Indexed) (name id : String) : Indexed × Bool :=
  let owner := m.idOfName.get? name
  let owned := m.nameOfId.get? id
  if owner.any (· ≠ id) then (m, false)
  else if owned.any (· ≠ name) then (m, false)
  else if owner.isSome && owned.isSome then (m, true)
  else (m.bind name id, true)

/-- Carries out a command. -/
def perform (m : Indexed) : Command → Indexed × Answer
  | .add name id => ((m.add name id).1, .added (m.add name id).2)
  | .get id => (m, .found (m.nameOfId.get? id))
  | .reserve name id => ((m.reserve name id).1, .reserved (m.reserve name id).2)
  | .demand name id =>
    ((m.reserve name id).1, if (m.reserve name id).2 then .done else .refused ⟨name, id⟩)
  | .list limit => (m, .listed (limit.elim m.bindings m.bindings.take))

/-- Carries out commands in turn and collects their answers. -/
def performAll (m : Indexed) : List Command → Indexed × List Answer
  | [] => (m, [])
  | c :: cs =>
    let (m', answer) := m.perform c
    let (m'', answers) := m'.performAll cs
    (m'', answer :: answers)

/-! ### Maps and scopes -/

/-- The maps hold the bindings of a scope, those from names to ids in their order. -/
structure Holds (m : Indexed) (s : Scope) : Prop where
  entries : m.idOfName.entries = s.bindings.map fun b => (b.name, b.id)
  nameOf : ∀ id, m.nameOfId.get? id = s.nameOf? id
  rename : m.rename = s.rename

theorem holds_empty (ρ : Renaming) : (empty ρ).Holds (.empty ρ) := ⟨rfl, fun _ => rfl, rfl⟩

variable {m : Indexed} {s : Scope}

theorem Holds.bindings (h : m.Holds s) : m.bindings = s.bindings := by
  rw [Indexed.bindings, h.entries, List.map_map]
  exact List.map_id s.bindings

/-- Both know the same names, and the same ids behind them. -/
theorem Holds.idOf (h : m.Holds s) (hs : s.Unique) (name : String) :
    m.idOfName.get? name = s.idOf? name := by
  have hkeys : (m.idOfName.entries.map (·.1)).Nodup := by
    rw [h.entries, List.map_map]
    exact hs.names
  have hmem : ∀ id, (name, id) ∈ m.idOfName.entries ↔ ⟨name, id⟩ ∈ s.bindings := by
    intro id
    rw [h.entries, List.mem_map]
    constructor
    · rintro ⟨b, hb, heq⟩
      cases heq
      exact hb
    · exact fun hb => ⟨_, hb, rfl⟩
  ext id
  rw [hs.idOf?_eq_some_iff, ← hmem]
  exact Table.findEntry?_eq_some_iff hkeys

theorem Holds.isFree (h : m.Holds s) (hs : s.Unique) : m.isFree = s.isFree := by
  funext name
  rw [Indexed.isFree, Scope.isFree, Table.contains, h.idOf hs, Option.not_isSome]

/-- Both find the same free name. -/
theorem Holds.freeName (h : m.Holds s) (hs : s.Unique) (name : String) :
    m.freeName name = s.freeName name := by
  have hsize : m.idOfName.size = s.size := by
    rw [Table.size, h.entries, List.length_map]
    rfl
  have hcandidates : m.candidates name = s.candidates name := by
    rw [Indexed.candidates, Scope.candidates, hsize, h.rename]
  rw [Indexed.freeName, Scope.freeName, h.isFree hs, hcandidates]

/-- Entering a binding overwrites nothing, if its name and its id are new. -/
theorem Holds.bind (h : m.Holds s) {name id : String} (hname : name ∉ s.names) (hid : id ∉ s.ids) :
    (m.bind name id).Holds (s.bind name id) where
  entries := by
    have hkey : name ∉ m.idOfName.entries.map (·.1) := by
      rw [h.entries, List.map_map]
      exact hname
    show Table.insertEntry name id m.idOfName.entries = _
    rw [Table.insertEntry_of_not_mem id hkey, h.entries, bindings_bind, List.map_append]
    rfl
  nameOf := by
    intro i
    show (m.nameOfId.insert id name).get? i = _
    rw [Table.get?_insert, nameOf?_bind, h.nameOf]
    by_cases hi : i = id
    · -- the id of the new binding owned no name
      rw [hi, if_pos rfl, if_pos rfl, nameOf?_eq_none_iff.2 hid, Option.none_or]
    · rw [if_neg hi, if_neg (Ne.symm hi), Option.or_none]
  rename := h.rename

/-! ### Commands -/

/-- Adding gives the same name, which is new to both maps if it is given for the first time. -/
theorem Holds.add (h : m.Holds s) (hs : s.Unique) (hρ : s.rename.Distinct) (name id : String) :
    (m.add name id).2 = (s.add name id).2 ∧ (m.add name id).1.Holds (s.add name id).1 := by
  unfold Indexed.add Scope.add
  rw [h.nameOf, h.freeName hs]
  cases hid : s.nameOf? id with
  | some owned => exact ⟨rfl, h⟩
  | none =>
    have hnew := freeName_not_mem_names (hρ name)
    exact ⟨rfl, h.bind hnew (nameOf?_eq_none_iff.1 hid)⟩

/-- Reserving gives the same answer. A side that only one of the maps knows is never met: what a
name stands for owns the name, so that either both sides are new or both are known. -/
theorem Holds.reserve (h : m.Holds s) (hs : s.Unique) (name id : String) :
    (m.reserve name id).2 = (s.reserve name id).2 ∧
      (m.reserve name id).1.Holds (s.reserve name id).1 := by
  have hinverse : s.idOf? name = some id ↔ s.nameOf? id = some name := by
    rw [hs.idOf?_eq_some_iff, hs.nameOf?_eq_some_iff]
  unfold Indexed.reserve Scope.reserve
  rw [h.idOf hs, h.nameOf]
  cases howner : s.idOf? name with
  | none =>
    cases howned : s.nameOf? id with
    | none => exact ⟨rfl, h.bind (idOf?_eq_none_iff.1 howner) (nameOf?_eq_none_iff.1 howned)⟩
    | some owned =>
      -- the id owns another name, since this one stands for nothing
      have hne : owned ≠ name := by
        rintro rfl
        rw [hinverse.2 howned] at howner
        cases howner
      simp [hne, h]
  | some owner =>
    by_cases hid : owner = id
    · subst hid
      have howned : s.nameOf? owner = some name := hinverse.1 howner
      simp [howned, h]
    · simp [hid, h]

/-- **A command has the same answer for the maps and for the scope**, and the maps hold the bindings
that it leaves. -/
theorem Holds.perform (h : m.Holds s) (hs : s.Unique) (hρ : s.rename.Distinct) (c : Command) :
    (m.perform c).2 = (s.perform c).2 ∧ (m.perform c).1.Holds (s.perform c).1 := by
  cases c with
  | add name id =>
    obtain ⟨hname, hholds⟩ := h.add hs hρ name id
    exact ⟨congrArg Answer.added hname, hholds⟩
  | get id => exact ⟨congrArg Answer.found (h.nameOf id), h⟩
  | reserve name id =>
    obtain ⟨hgranted, hholds⟩ := h.reserve hs name id
    exact ⟨congrArg Answer.reserved hgranted, hholds⟩
  | demand name id =>
    obtain ⟨hgranted, hholds⟩ := h.reserve hs name id
    rw [perform_demand, Indexed.perform, hgranted]
    exact ⟨rfl, hholds⟩
  | list limit =>
    refine ⟨?_, h⟩
    rw [Indexed.perform, Scope.perform, h.bindings]

/-- Along every history the answers are the same, and the maps go on holding the bindings. -/
theorem Holds.performAll (h : m.Holds s) (hs : s.Unique) (hρ : s.rename.Distinct)
    (cs : List Command) :
    (m.performAll cs).2 = (s.performAll cs).2 ∧ (m.performAll cs).1.Holds (s.performAll cs).1 := by
  induction cs generalizing m s with
  | nil => exact ⟨rfl, h⟩
  | cons c cs ih =>
    obtain ⟨hanswer, hholds⟩ := h.perform hs hρ c
    have hρ' : (s.perform c).1.rename.Distinct := by rwa [rename_perform]
    obtain ⟨hanswers, hlast⟩ := ih hholds (hs.perform hρ c) hρ'
    refine ⟨?_, hlast⟩
    show (m.perform c).2 :: ((m.perform c).1.performAll cs).2 =
      (s.perform c).2 :: ((s.perform c).1.performAll cs).2
    rw [hanswer, hanswers]

end Indexed

/-! ### Inverse maps -/

variable {ρ : Renaming}

/-- **The two maps are inverse to each other, and bindings are only ever appended.** After every
history, with its refusals, the maps have given the answers of the scope and hold its bindings; a
name stands for an id exactly if the id owns the name; a listing has each binding once and nothing
else; and the bindings are still there, first and in their order, after every longer history. -/
theorem maps_inverse (hρ : ρ.Distinct) (cs later : List Command) :
    let m := ((Indexed.empty ρ).performAll cs).1
    let s := ((Scope.empty ρ).performAll cs).1
    let s' := ((Scope.empty ρ).performAll (cs ++ later)).1
    ((Indexed.empty ρ).performAll cs).2 = ((Scope.empty ρ).performAll cs).2 ∧
      (∀ name id, m.idOfName.get? name = s.idOf? name ∧ m.nameOfId.get? id = s.nameOf? id) ∧
      (∀ name id, s.idOf? name = some id ↔ s.nameOf? id = some name) ∧
      (m.perform (.list none)).2 = .listed s.bindings ∧
      (s.perform (.list none)).2 = .listed s.bindings ∧
      (∀ b, s.bindings.count b = if s.nameOf? b.id = some b.name then 1 else 0) ∧
      m.idOfName.size = s.bindings.length ∧ s.size = s.bindings.length ∧
      s.bindings <+: s'.bindings := by
  intro m s s'
  have hs : s.Unique := (Unique.empty ρ).performAll hρ cs
  obtain ⟨hanswers, hholds⟩ :=
    (Indexed.holds_empty ρ).performAll (Unique.empty ρ) hρ cs
  refine ⟨hanswers, fun name id => ⟨hholds.idOf hs name, hholds.nameOf id⟩, ?_, ?_, rfl, ?_, ?_,
    rfl, ?_⟩
  · -- either direction finds the binding, and there is only one for the name and one for the id
    intro name id
    rw [hs.idOf?_eq_some_iff, hs.nameOf?_eq_some_iff]
  · exact congrArg Answer.listed hholds.bindings
  · intro b
    rw [(List.Nodup.of_map _ hs.ids).count]
    simp only [hs.nameOf?_eq_some_iff]
  · rw [Table.size, hholds.entries, List.length_map]
  · show s.bindings <+: ((Scope.empty ρ).performAll (cs ++ later)).1.bindings
    rw [performAll_append]
    exact bindings_isPrefix_performAll s later

/-- Maps in which one name is renamed, and two reservations are refused. -/
theorem maps_inverse_of_refusals :
    let cs : List Command := [.add "fmt" "fmt", .reserve "fmt" "example.com/fmt",
      .demand "format" "fmt", .add "fmt" "example.com/fmt", .reserve "log" "example.com/log"]
    let later : List Command := [.demand "log" "log", .add "fmt1" "log"]
    let m := ((Indexed.empty .numbered).performAll cs).1
    let s := ((Scope.empty .numbered).performAll cs).1
    let s' := ((Scope.empty .numbered).performAll (cs ++ later)).1
    Renaming.numbered.Distinct ∧
      ((Indexed.empty .numbered).performAll cs).2 = ((Scope.empty .numbered).performAll cs).2 ∧
      (∀ name id, m.idOfName.get? name = s.idOf? name ∧ m.nameOfId.get? id = s.nameOf? id) ∧
      (∀ name id, s.idOf? name = some id ↔ s.nameOf? id = some name) ∧
      (m.perform (.list none)).2 = .listed s.bindings ∧
      (s.perform (.list none)).2 = .listed s.bindings ∧
      (∀ b, s.bindings.count b = if s.nameOf? b.id = some b.name then 1 else 0) ∧
      m.idOfName.size = s.bindings.length ∧ s.size = s.bindings.length ∧
      s.bindings <+: s'.bindings := by
  intro cs later m s s'
  exact ⟨Renaming.numbered_distinct, maps_inverse Renaming.numbered_distinct cs later⟩

end ImportPlan.Scope
