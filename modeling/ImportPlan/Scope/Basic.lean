import ImportPlan.Error

namespace ImportPlan

/-!
# Scopes

A scope binds local names to opaque ids. An id owns at most one name and a name belongs to at most
one id; bindings are only ever added, at the end.

* `Renaming` — the further candidates for a name that is taken; `numbered` and `underscored`.
* `Scope.nameOf?`, `Scope.idOf?` — the two directions of a look-up.
* `Scope.add` — binds an id to the first free candidate for a name.
* `Scope.reserve`, `Scope.demand` — bind an id to exactly one name or not at all.
-/

/-! ### Renamings -/

/-- The `n`-th candidate for a name; the name itself counts as the first, so `n` is 2 or more. -/
abbrev Renaming := String → Nat → String

/-- The candidates `name1`, `name2`, and so on. -/
def Renaming.numbered : Renaming := fun name n => name ++ toString (n - 1)

/-- The candidates `name_2`, `name_3`, and so on. -/
def Renaming.underscored : Renaming := fun name n => name ++ "_" ++ toString n

/-! ### Bindings -/

/-- A local name and the id it stands for. -/
structure Binding where
  name : String
  id : String
  deriving DecidableEq, Repr

/-- The bindings of a file in the order of their registration, and the way to rename. -/
structure Scope where
  bindings : List Binding
  rename : Renaming

namespace Scope

/-- The scope without bindings. -/
def empty (rename : Renaming) : Scope := ⟨[], rename⟩

/-- The number of bindings. -/
def size (s : Scope) : Nat := s.bindings.length

/-- Whether there is no binding. -/
def isEmpty (s : Scope) : Bool := s.bindings.isEmpty

/-- The id that `name` stands for. -/
def idOf? (s : Scope) (name : String) : Option String :=
  (s.bindings.find? (·.name == name)).map (·.id)

/-- The name that `id` owns. -/
def nameOf? (s : Scope) (id : String) : Option String :=
  (s.bindings.find? (·.id == id)).map (·.name)

/-- Appends a binding; for a name and an id that are both free. -/
def bind (s : Scope) (name id : String) : Scope :=
  { s with bindings := s.bindings ++ [⟨name, id⟩] }

@[simp] theorem bindings_bind (s : Scope) (name id : String) :
    (s.bind name id).bindings = s.bindings ++ [⟨name, id⟩] := rfl

@[simp] theorem rename_bind (s : Scope) (name id : String) :
    (s.bind name id).rename = s.rename := rfl

/-- A new binding is found by its name behind those that are there. -/
theorem idOf?_bind (s : Scope) (name id n : String) :
    (s.bind name id).idOf? n = (s.idOf? n).or (if name = n then some id else none) := by
  simp only [idOf?, bind, List.find?_append, Option.map_or]
  congr 1
  by_cases h : name = n <;> simp [h]

/-- A new binding is found by its id behind those that are there. -/
theorem nameOf?_bind (s : Scope) (name id i : String) :
    (s.bind name id).nameOf? i = (s.nameOf? i).or (if id = i then some name else none) := by
  simp only [nameOf?, bind, List.find?_append, Option.map_or]
  congr 1
  by_cases h : id = i <;> simp [h]

/-! ### Adding -/

/-- Whether no id owns `name`. -/
def isFree (s : Scope) (name : String) : Bool := (s.idOf? name).isNone

/-- The renamed candidates for `name` that have to be tried: one more than there are bindings, so
that distinct candidates cannot all be taken. -/
def candidates (s : Scope) (name : String) : List String :=
  (List.range (s.size + 1)).map fun k => s.rename name (k + 2)

/-- `name` if it is free, else its first free renamed candidate. -/
def freeName (s : Scope) (name : String) : String :=
  if s.isFree name then name else ((s.candidates name).find? s.isFree).getD name

/-- Binds `id` to the first free candidate for `name` and gives that name; an id that owns a name
keeps it. -/
def add (s : Scope) (name id : String) : Scope × String :=
  match s.nameOf? id with
  | some owned => (s, owned)
  | none => (s.bind (s.freeName name) id, s.freeName name)

/-- An id that owns a name keeps it. -/
theorem add_of_nameOf? {s : Scope} {name id owned : String} (h : s.nameOf? id = some owned) :
    s.add name id = (s, owned) := by
  simp [add, h]

/-- An id without a name gets the first free candidate. -/
theorem add_of_unbound {s : Scope} {name id : String} (h : s.nameOf? id = none) :
    s.add name id = (s.bind (s.freeName name) id, s.freeName name) := by
  simp [add, h]

/-- Adds names with their ids in turn. -/
def addAll (s : Scope) (entries : List (String × String)) : Scope :=
  entries.foldl (fun s e => (s.add e.1 e.2).1) s

/-! ### Reserving -/

/-- Binds `id` to exactly `name`, and says whether the two are bound to each other now. -/
def reserve (s : Scope) (name id : String) : Scope × Bool :=
  match s.idOf? name, s.nameOf? id with
  | none, none => (s.bind name id, true)
  | owner, owned => (s, owner == some id && owned == some name)

/-- Like `reserve`, for callers to whom a conflict is an error. -/
def demand (s : Scope) (name id : String) : Except Conflict Scope :=
  match s.reserve name id with
  | (s', true) => .ok s'
  | (_, false) => .error ⟨name, id⟩

end Scope

end ImportPlan
