import ImportPlan.Proofs.Rules.RuleTable
import ImportPlan.Proofs.Scope.Unique
import ImportPlan.Session.Step

namespace ImportPlan

/-!
# Effects of the operations of a session

What each operation of a session does to the parts of its state, so that later files need not unfold
any of them.

* `Session.perform_eq`, `Session.mem_pinned_perform` — a scope command works on the redirected id
  and pins it if it is granted.
* `Session.registerAll_eq` — registrations are added in turn, and the required ones are pinned.
* `Session.confirm_eq` — a confirmation takes its library off the unconfirmed ones.
* `Session.resolve_eq_ok_iff` — a session resolves to its block once a document is registered.
* `Session.StepsTo` — what a step can come to, rule by rule; `Session.stepsTo_step` — there is
  nothing else.
-/

/-- The id that a registration is certain to import, before redirection. -/
def Registration.requiredId? : Registration → Option String
  | .required p => some p.path
  | .tentative _ => none

/-- No two libraries share a name. -/
@[simp] theorem Library.name_inj {l m : Library} : l.name = m.name ↔ l = m := by
  cases l <;> cases m <;> decide

/-- Libraries go by their names, and no other text is the name of one. -/
theorem Library.ofName_eq_ok_iff {name : String} {l : Library} :
    Library.ofName name = .ok l ↔ name = l.name := by
  constructor
  · intro h
    rw [Library.ofName] at h
    cases hfind : Library.all.find? (·.name == name) with
    | some found =>
      rw [hfind] at h
      cases h
      have hname : l.name = name := by simpa using List.find?_some hfind
      exact hname.symm
    | none =>
      rw [hfind] at h
      cases h
  · rintro rfl
    cases l <;> rfl

namespace Scope

@[simp] theorem Command.target?_mapId (f : String → String) (c : Command) :
    (c.mapId f).target? = c.target?.map f := by
  cases c <;> rfl

/-- Commands that add are carried out like additions in turn. -/
theorem performAll_add (s : Scope) (entries : List (String × String)) :
    (s.performAll (entries.map fun e => .add e.1 e.2)).1 = s.addAll entries := by
  induction entries generalizing s with
  | nil => rfl
  | cons e rest ih => exact ih (s.add e.1 e.2).1

end Scope

namespace Session

/-! ### Scope commands -/

/-- A scope command works on the redirected id and pins it if it is granted; nothing else in the
session changes. -/
theorem perform_eq (s : Session) (c : Scope.Command) :
    (s.perform c).1 =
      let (scope, answer) := s.scope.perform (c.mapId s.redirection.resolve)
      { s with
        scope
        pinned := (if answer.granted then (c.target?.map s.redirection.resolve).toList else [])
          ++ s.pinned } := by
  simp only [perform, Redirection.perform]
  cases hid : c.target? with
  | none => simp
  | some id =>
    by_cases hgranted : (s.scope.perform (c.mapId s.redirection.resolve)).2.granted
    · simp [hgranted, pin]
    · simp [hgranted]

theorem answer_perform (s : Session) (c : Scope.Command) :
    (s.perform c).2.1 = (s.scope.perform (c.mapId s.redirection.resolve)).2 := by
  simp only [perform, Redirection.perform]
  split <;> rfl

/-- A scope command pins the redirected id that it asks to bind, if it is granted. -/
theorem mem_pinned_perform (s : Session) (c : Scope.Command) (path : String) :
    path ∈ (s.perform c).1.pinned ↔ path ∈ s.pinned ∨
      ((s.perform c).2.1.granted = true ∧ ∃ id, c.target? = some id ∧
        s.redirection.resolve id = path) := by
  rw [perform_eq, answer_perform]
  simp only [List.mem_append]
  rw [or_comm]
  cases (s.scope.perform (c.mapId s.redirection.resolve)).2.granted with
  | false => simp
  | true => simp

/-! ### Registrations -/

/-- A registration adds its redirected id and pins it if it is required. -/
theorem register_eq (s : Session) (g : Registration) :
    (s.register g).1 =
      { s with
        scope := (s.scope.add g.name (s.redirection.resolve g.id)).1
        pinned := (g.requiredId?.map s.redirection.resolve).toList ++ s.pinned } := by
  cases g <;> rfl

/-- Registrations are added in turn, each under its redirected id, and the required ones are pinned;
nothing else in the session changes. -/
theorem registerAll_eq (s : Session) (gs : List Registration) :
    (s.registerAll gs).1 =
      { s with
        scope := s.scope.addAll (gs.map fun g => (g.name, s.redirection.resolve g.id))
        pinned := ((gs.filterMap (·.requiredId?)).map s.redirection.resolve).reverse
          ++ s.pinned } := by
  induction gs generalizing s with
  | nil => rfl
  | cons g gs ih =>
    have hstep : (s.registerAll (g :: gs)).1 = ((s.register g).1.registerAll gs).1 := rfl
    have hadd : s.scope.addAll ((g :: gs).map fun g => (g.name, s.redirection.resolve g.id)) =
        (s.scope.add g.name (s.redirection.resolve g.id)).1.addAll
          (gs.map fun g => (g.name, s.redirection.resolve g.id)) := rfl
    rw [hstep, ih, register_eq, hadd]
    -- what is pinned later comes first
    cases g <;> simp [Registration.requiredId?]

/-! ### Confirmation and resolution -/

/-- A confirmation takes its library off the unconfirmed ones and changes nothing else. -/
theorem confirm_eq (s : Session) (l : Library) :
    (s.confirm l).1 = { s with unconfirmed := s.unconfirmed.erase l } := by
  rw [confirm]
  split
  · rfl
  · rename_i hnot
    rw [List.erase_of_not_mem hnot]

/-- What a session resolves to is its block, once a document is registered. -/
theorem resolve_eq_ok_iff {s : Session} {b : Block} :
    s.resolve.1 = .ok b ↔ s.hasDocument = true ∧ b = s.block := by
  rw [resolve]
  cases s.hasDocument <;> simp [eq_comm]

theorem resolve_of_hasDocument {s : Session} (h : s.hasDocument = true) :
    s.resolve.1 = .ok s.block :=
  resolve_eq_ok_iff.2 ⟨h, rfl⟩

/-! ### Steps -/

/-- What a step can come to: the session after it and its reply. -/
inductive StepsTo (s : Session) : Step → Session → Reply → Prop
  | performed (c : Scope.Command) :
    StepsTo s (.scope c) (s.perform c).1 (.scope (s.perform c).2.1)
  /-- The first document is registered, and each further one is refused. -/
  | registered (features : Features) (d : Document) (h : s.hasDocument = false) :
    StepsTo s (.document features d)
      ({ s with hasDocument := true }.registerAll (Rules.registrations features d)).1 .registered
  | refused (features : Features) (d : Document) (h : s.hasDocument = true) :
    StepsTo s (.document features d) s (.misused .secondDocument)
  | confirmed (l : Library) :
    StepsTo s (.confirm l.name) { s with unconfirmed := s.unconfirmed.erase l } (.confirmed l)
  | notConfirmed (name : String) (e : InputError) (h : Library.ofName name = .error e) :
    StepsTo s (.confirm name) s (.rejected e)
  | asked (l : Library) : StepsTo s (.isConfirmed l.name) s (.isConfirmed (s.isConfirmed l))
  | notAsked (name : String) (e : InputError) (h : Library.ofName name = .error e) :
    StepsTo s (.isConfirmed name) s (.rejected e)
  /-- Imports are resolved once a document is registered. -/
  | resolved (h : s.hasDocument = true) : StepsTo s .resolve s (.resolved s.block)
  | notResolved (h : s.hasDocument = false) : StepsTo s .resolve s (.misused .noDocument)

/-- **Every step comes to one of these.** -/
theorem stepsTo_step (s : Session) (p : Step) : s.StepsTo p (s.step p).1 (s.step p).2.1 := by
  cases p with
  | scope c => exact .performed c
  | document features d =>
    simp only [step, registerDocument]
    cases hdocument : s.hasDocument with
    | true => exact .refused features d hdocument
    | false => exact .registered features d hdocument
  | confirm name =>
    simp only [step]
    cases hname : Library.ofName name with
    | ok l =>
      obtain rfl := Library.ofName_eq_ok_iff.1 hname
      show s.StepsTo (.confirm l.name) (s.confirm l).1 (.confirmed l)
      rw [confirm_eq]
      exact .confirmed l
    | error e => exact .notConfirmed name e hname
  | isConfirmed name =>
    simp only [step]
    cases hname : Library.ofName name with
    | ok l =>
      obtain rfl := Library.ofName_eq_ok_iff.1 hname
      exact .asked l
    | error e => exact .notAsked name e hname
  | resolve =>
    simp only [step, resolve]
    cases hdocument : s.hasDocument with
    | true => exact .resolved hdocument
    | false => exact .notResolved hdocument

end Session

end ImportPlan
