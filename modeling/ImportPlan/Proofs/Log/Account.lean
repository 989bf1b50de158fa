import ImportPlan.Proofs.Log.Lines
import ImportPlan.Proofs.Plan.WellFormed
import ImportPlan.Proofs.Scope.Reservation
import ImportPlan.Proofs.Session.Growth

namespace ImportPlan

/-!
# The log as an account of a run

What has been asked of a session and how its state has changed can be read off its log.

* `Event.redirection?`, `Event.registration?`, `Event.offer?`, `Event.resolution?` — the events of
  one kind, by what they say.
* `Session.History.requested`, `Session.History.packages`, `Session.History.blocks` — the ids that
  were to be bound, the packages of the document, and the blocks that were resolved.
* `Session.Tells` — what a log tells; `Session.tells_step`, `Session.tells_run` — the log of a step
  and that of a run.
* `Session.TellsConfirmed` — it tells of confirmations; `Session.tellsConfirmed_step`,
  `Session.tellsConfirmed_run` — so do these logs.
* `Session.Tells.legible` — the events of a run can be told apart by their lines.
* `Session.log_tells_run` — so the lines of a log are a faithful account.
-/

/-! ### What events say -/

namespace Event

/-- An id that was replaced, with what it was replaced by. -/
def redirection? : Event → Option (String × String)
  | redirected id target => some (id, target)
  | _ => none

/-- A path that was registered for certain, with its name. -/
def registration? : Event → Option (String × String)
  | registered path name => some (path, name)
  | _ => none

/-- A library that was registered tentatively, with its name. -/
def offer? : Event → Option (Library × String)
  | registeredTentatively library name => some (library, name)
  | _ => none

/-- The number of imports that were resolved. -/
def resolution? : Event → Option Nat
  | resolved count => some count
  | _ => none

end Event

/-! ### What registrations are about -/

namespace Registration

/-- The package that is certain to be imported. -/
def package? : Registration → Option Package
  | required p => some p
  | tentative _ => none

/-- The library that is imported if its use is confirmed. -/
def library? : Registration → Option Library
  | required _ => none
  | tentative l => some l

/-- The event that reports the registration under the name that it has got. -/
def event (r : Redirection) (name : String) : Registration → Event
  | required p => .registered (r.resolve p.path) name
  | tentative l => .registeredTentatively l name

end Registration

namespace Scope

/-- An id keeps its name when bindings are appended. -/
theorem nameOf?_of_isPrefix {s t : Scope} (h : s.bindings <+: t.bindings) {id name : String}
    (hname : s.nameOf? id = some name) : t.nameOf? id = some name := by
  obtain ⟨new, hnew⟩ := h
  rw [nameOf?, Option.map_eq_some_iff] at hname
  obtain ⟨b, hfind, rfl⟩ := hname
  rw [nameOf?, ← hnew, List.find?_append, hfind]
  rfl

/-- What adding gives is the name that the id owns then. -/
theorem nameOf?_add (s : Scope) (name id : String) :
    (s.add name id).1.nameOf? id = some (s.add name id).2 := by
  cases hid : s.nameOf? id with
  | some owned =>
    rw [add_of_nameOf? hid]
    exact hid
  | none =>
    rw [add_of_unbound hid, nameOf?_bind, hid]
    simp

end Scope

namespace Session

/-! ### What a history has asked for -/

/-- The ids that a step asks to bind, whether it is granted or not. -/
def requestedBy : Step → Reply → List String
  | .scope c, _ => c.target?.toList
  | .document features d, .registered => (Rules.registrations features d).map (·.id)
  | _, _ => []

/-- The packages that a document asks for, one for each place that needs it. -/
def packagesBy : Step → Reply → List Package
  | .document features d, .registered => Rules.requiredPackages features d
  | _, _ => []

/-- The block that a step has resolved. -/
def blocksBy : Step → Reply → List Block
  | .resolve, .resolved b => [b]
  | _, _ => []

namespace History

/-- All ids that were to be bound. -/
def requested (h : History) : List String := h.flatMap fun e => requestedBy e.1 e.2

/-- All packages that documents have asked for. -/
def packages (h : History) : List Package := h.flatMap fun e => packagesBy e.1 e.2

/-- All blocks that were resolved. -/
def blocks (h : History) : List Block := h.flatMap fun e => blocksBy e.1 e.2

end History

/-! ### What a log tells -/

/-- The log tells, each in order, of the ids that were `requested` and are redirected, of the
`packages` and the `offered` libraries with the names that their ids own in the scope `names`, and
of the sizes of the resolved `blocks`. -/
structure Tells (r : Redirection) (names : Scope) (log : List Event) (requested : List String)
    (packages : List Package) (offered : List Library) (blocks : List Block) : Prop where
  redirections : log.filterMap Event.redirection? =
    (requested.filter fun id => r.resolve id ≠ id).map fun id => (id, r.resolve id)
  registrations : List.Forall₂
    (fun p e => e.1 = r.resolve p.path ∧ names.nameOf? e.1 = some e.2)
    packages (log.filterMap Event.registration?)
  offers : List.Forall₂
    (fun l e => e.1 = l ∧ names.nameOf? (r.resolve l.name) = some e.2)
    offered (log.filterMap Event.offer?)
  resolutions : log.filterMap Event.resolution? = blocks.map (·.imports.length)

variable {s : Session} {r : Redirection} {names : Scope} {log log' : List Event}
  {requested requested' : List String} {packages packages' : List Package}
  {offered offered' : List Library} {blocks blocks' : List Block}

theorem Tells.nil (r : Redirection) (names : Scope) : Tells r names [] [] [] [] [] :=
  ⟨rfl, .nil, .nil, rfl⟩

/-- Logs go on where others end. -/
theorem Tells.append (h : Tells r names log requested packages offered blocks)
    (h' : Tells r names log' requested' packages' offered' blocks') :
    Tells r names (log ++ log') (requested ++ requested') (packages ++ packages')
      (offered ++ offered') (blocks ++ blocks') where
  redirections := by
    rw [List.filterMap_append, h.redirections, h'.redirections, List.filter_append,
      List.map_append]
  registrations := by
    rw [List.filterMap_append]
    exact List.rel_append h.registrations h'.registrations
  offers := by
    rw [List.filterMap_append]
    exact List.rel_append h.offers h'.offers
  resolutions := by
    rw [List.filterMap_append, h.resolutions, h'.resolutions, List.map_append]

/-- A command reports its id if that is redirected. -/
theorem events_eq (r : Redirection) (c : Scope.Command) :
    r.events c = (c.target?.toList.filter fun id => r.resolve id ≠ id).map
      fun id => .redirected id (r.resolve id) := by
  rw [Redirection.events]
  cases c.target? with
  | none => rfl
  | some id => by_cases hid : r.resolve id = id <;> simp [hid]

/-- A redirection is reported whatever comes of the command. -/
theorem tells_command (r : Redirection) (names : Scope) (c : Scope.Command) :
    Tells r names (r.events c) c.target?.toList [] [] [] := by
  rw [events_eq]
  refine ⟨?_, ?_, ?_, ?_⟩
  · rw [List.filterMap_map]
    exact congrFun List.filterMap_eq_map _
  all_goals simp [List.filterMap_map, Event.registration?, Event.offer?, Event.resolution?]

/-- What a registration reports: a redirection if there is one, and the name that it has got. -/
theorem events_register (s : Session) (g : Registration) :
    (s.register g).2 = s.redirection.events (.add g.name g.id) ++
      [g.event s.redirection (s.scope.add g.name (s.redirection.resolve g.id)).2] := by
  cases g <;> rfl

/-- The name that a registration reports is the one that its id owns from then on. -/
theorem tells_register (s : Session) (g : Registration)
    (hnames : (s.register g).1.scope.bindings <+: names.bindings) :
    Tells s.redirection names (s.register g).2 [g.id] g.package?.toList g.library?.toList [] := by
  have hname : names.nameOf? (s.redirection.resolve g.id) =
      some (s.scope.add g.name (s.redirection.resolve g.id)).2 := by
    refine Scope.nameOf?_of_isPrefix hnames ?_
    rw [register_eq]
    exact Scope.nameOf?_add _ _ _
  have hcommand := tells_command s.redirection names (.add g.name g.id)
  rw [events_register]
  cases g with
  | required p => exact hcommand.append ⟨rfl, .cons ⟨rfl, hname⟩ .nil, .nil, rfl⟩
  | tentative l => exact hcommand.append ⟨rfl, .nil, .cons ⟨rfl, hname⟩ .nil, rfl⟩

/-- Registrations leave the bindings that are there in their places. -/
theorem bindings_isPrefix_registerAll (s : Session) (gs : List Registration) :
    s.scope.bindings <+: (s.registerAll gs).1.scope.bindings := by
  rw [registerAll_eq, ← Scope.performAll_add]
  exact Scope.bindings_isPrefix_performAll _ _

/-- So the names stay true while further registrations are made. -/
theorem tells_registerAll (s : Session) (gs : List Registration)
    (hnames : (s.registerAll gs).1.scope.bindings <+: names.bindings) :
    Tells s.redirection names (s.registerAll gs).2 (gs.map (·.id)) (gs.filterMap (·.package?))
      (gs.filterMap (·.library?)) [] := by
  induction gs generalizing s with
  | nil => exact .nil _ names
  | cons g gs ih =>
    have hfirst := tells_register s g
      ((bindings_isPrefix_registerAll (s.register g).1 gs).trans hnames)
    have hrest := ih (s.register g).1 hnames
    rw [register_eq] at hrest
    cases g <;> exact hfirst.append hrest

/-- What a document registers are the packages that it asks for, and the libraries that it may
turn out to need. -/
theorem filterMap_registrations (features : Features) (d : Document) :
    (Rules.registrations features d).filterMap (·.package?) = Rules.requiredPackages features d ∧
      (Rules.registrations features d).filterMap (·.library?) =
        Rules.tentativeLibraries features := by
  simp [Rules.registrations, List.filterMap_map, Registration.package?, Registration.library?]

/-- Scope commands report redirections only. -/
theorem events_perform (s : Session) (c : Scope.Command) :
    (s.perform c).2.2 = s.redirection.events c := by
  simp only [perform, Redirection.perform]
  split <;> rfl

/-- The log of a confirmation tells of nothing else. -/
theorem tells_confirm (s : Session) (l : Library) (names : Scope) :
    Tells s.redirection names (s.confirm l).2 [] [] [] [] := by
  rw [confirm]
  split
  · exact ⟨rfl, .nil, .nil, rfl⟩
  · exact .nil _ names

/-- **The log of a step tells of it**, with the names that the ids own from then on. -/
theorem tells_step (s : Session) (p : Step)
    (hnames : (s.step p).1.scope.bindings <+: names.bindings) :
    Tells s.redirection names (s.step p).2.2 (requestedBy p (s.step p).2.1)
      (packagesBy p (s.step p).2.1) (offeredBy p (s.step p).2.1) (blocksBy p (s.step p).2.1) := by
  cases p with
  | scope c =>
    show Tells s.redirection names (s.perform c).2.2 c.target?.toList [] [] []
    rw [events_perform]
    exact tells_command s.redirection names c
  | document features d =>
    simp only [step, registerDocument] at hnames ⊢
    cases hdocument : s.hasDocument with
    | true => exact .nil _ names
    | false =>
      simp only [hdocument] at hnames
      obtain ⟨hpackages, hlibraries⟩ := filterMap_registrations features d
      have hall := tells_registerAll { s with hasDocument := true } _ hnames
      rwa [hpackages, hlibraries] at hall
  | confirm name =>
    simp only [step]
    cases Library.ofName name with
    | ok l => exact tells_confirm s l names
    | error e => exact .nil _ names
  | isConfirmed name =>
    simp only [step]
    cases Library.ofName name <;> exact .nil _ names
  | resolve =>
    simp only [step, resolve]
    cases s.hasDocument with
    | true => exact ⟨rfl, .nil, .nil, rfl⟩
    | false => exact .nil _ names

/-- A run leaves the bindings that are there in their places. -/
theorem bindings_isPrefix_after {s : Session} (hs : s.unconfirmed.Nodup) (steps : List Step) :
    s.scope.bindings <+: (s.after steps).scope.bindings := by
  rw [(leads_run hs steps).scope]
  exact Scope.bindings_isPrefix_performAll _ _

/-- **The log of a run tells of it.** -/
theorem tells_run {s : Session} (hs : s.unconfirmed.Nodup) (steps : List Step)
    (hnames : (s.after steps).scope.bindings <+: names.bindings) :
    Tells s.redirection names (s.events steps) (s.history steps).requested
      (s.history steps).packages (s.history steps).offered (s.history steps).blocks := by
  induction steps generalizing s with
  | nil => exact .nil _ names
  | cons p ps ih =>
    have hleads := leads_step hs p
    -- the names of the step are still owned after the run, for no binding is taken back
    have hlater := bindings_isPrefix_after hleads.unconfirmed_nodup ps
    have hfirst := tells_step s p (hlater.trans hnames)
    have hrest := ih hleads.unconfirmed_nodup hnames
    rw [hleads.redirection] at hrest
    exact hfirst.append hrest

/-! ### What a log tells of confirmations -/

/-- Registrations report no confirmation. -/
theorem confirmed_not_mem_registerAll (s : Session) (gs : List Registration) (l : Library) :
    .confirmed l ∉ (s.registerAll gs).2 := by
  induction gs generalizing s with
  | nil => exact List.not_mem_nil
  | cons g gs ih =>
    have hfirst : .confirmed l ∉ (s.register g).2 := by
      rw [events_register, events_eq]
      cases g <;> simp [Registration.event]
    show .confirmed l ∉ (s.register g).2 ++ ((s.register g).1.registerAll gs).2
    rw [List.mem_append, not_or]
    exact ⟨hfirst, ih (s.register g).1⟩

/-- The log tells once of every library that was confirmed between `s` and `s'`, and of no other
confirmation. -/
def TellsConfirmed (s : Session) (log : List Event) (s' : Session) : Prop :=
  ∀ l, log.count (.confirmed l) = if l ∈ s.unconfirmed ∧ l ∉ s'.unconfirmed then 1 else 0

/-- A log without confirmations tells that none has happened. -/
theorem tellsConfirmed_of_eq {s' : Session} (hlog : ∀ l, .confirmed l ∉ log)
    (hunconfirmed : s'.unconfirmed = s.unconfirmed) : TellsConfirmed s log s' := by
  intro l
  rw [List.count_eq_zero.2 (hlog l), hunconfirmed, if_neg fun h => h.2 h.1]

/-- A confirmation is reported if it is the first one of its library. -/
theorem tellsConfirmed_confirm {s : Session} (hs : s.unconfirmed.Nodup) (l : Library) :
    TellsConfirmed s (s.confirm l).2 (s.confirm l).1 := by
  rw [confirm]
  split
  · next hl =>
    intro m
    by_cases hm : m = l
    · subst hm
      simp [hl, hs.mem_erase_iff]
    · simp [hs.mem_erase_iff, hm, Ne.symm hm]
  · exact tellsConfirmed_of_eq (by simp) rfl

/-- **The log of a step tells of the confirmation that it is**, if it is the first one. -/
theorem tellsConfirmed_step {s : Session} (hs : s.unconfirmed.Nodup) (p : Step) :
    TellsConfirmed s (s.step p).2.2 (s.step p).1 := by
  cases p with
  | scope c =>
    show TellsConfirmed s (s.perform c).2.2 (s.perform c).1
    rw [events_perform, events_eq]
    exact tellsConfirmed_of_eq (by simp) (by rw [perform_eq])
  | document features d =>
    simp only [step, registerDocument]
    cases s.hasDocument with
    | true => exact tellsConfirmed_of_eq (by simp) rfl
    | false =>
      refine tellsConfirmed_of_eq (confirmed_not_mem_registerAll _ _) ?_
      show (registerAll _ _).1.unconfirmed = s.unconfirmed
      rw [registerAll_eq]
  | confirm name =>
    simp only [step]
    cases Library.ofName name with
    | ok l => exact tellsConfirmed_confirm hs l
    | error e => exact tellsConfirmed_of_eq (by simp) rfl
  | isConfirmed name =>
    simp only [step]
    cases Library.ofName name <;> exact tellsConfirmed_of_eq (by simp) rfl
  | resolve =>
    simp only [step, resolve]
    cases s.hasDocument <;> exact tellsConfirmed_of_eq (by simp) rfl

/-- **The log of a run tells of every confirmation once.** -/
theorem tellsConfirmed_run {s : Session} (hs : s.unconfirmed.Nodup) (steps : List Step) :
    TellsConfirmed s (s.events steps) (s.after steps) := by
  induction steps generalizing s with
  | nil =>
    show TellsConfirmed s [] s
    exact tellsConfirmed_of_eq (by simp) rfl
  | cons p ps ih =>
    intro l
    have hleads := leads_step hs p
    have hstep := hleads.mem_unconfirmed l
    have hrest := (leads_run hleads.unconfirmed_nodup ps).mem_unconfirmed l
    -- a confirmation is never taken back, so that it is reported in one of the two parts
    rw [events_cons, List.count_append, tellsConfirmed_step hs p l,
      ih hleads.unconfirmed_nodup l, after_cons]
    grind

/-! ### Lines of a run -/

/-- An id that is redirected between import paths is one. -/
theorem isValid_of_resolve_ne (hr : r.Between) {id : String} (h : r.resolve id ≠ id) :
    Path.isValid id = true := by
  rw [Redirection.resolve] at h
  cases hfind : r.table.get? id with
  | none => simp [hfind] at h
  | some target => exact (hr _ (Table.mem_entries_of_get?_eq_some hfind)).1

/-- What documents ask for are import paths. -/
theorem isValid_of_mem_packages {h : History} {p : Package} (hp : p ∈ h.packages) :
    Path.isValid p.path = true := by
  obtain ⟨⟨step, reply⟩, -, hby⟩ := List.mem_flatMap.1 hp
  have hdocument : ∃ features d, p ∈ Rules.requiredPackages features d := by
    unfold packagesBy at hby
    split at hby
    · exact ⟨_, _, hby⟩
    · exact absurd hby List.not_mem_nil
  obtain ⟨features, d, hrequired⟩ := hdocument
  have hall : Registration.required p ∈ Registration.all :=
    Rules.registrations_subset features d
      (List.mem_append_left _ (List.mem_map_of_mem hrequired))
  exact Registration.isValid_id _ hall

/-- If all redirections are between import paths, the events of such a log can be told apart by
their lines. -/
theorem Tells.legible {h : History} (htells : Tells r names log requested h.packages offered
    blocks) (hr : r.Between) : ∀ e ∈ log, e.Legible := by
  intro e he
  cases e with
  | redirected id target =>
    have hmem : (id, target) ∈ log.filterMap Event.redirection? :=
      List.mem_filterMap.2 ⟨_, he, rfl⟩
    rw [htells.redirections] at hmem
    obtain ⟨id', hid', heq⟩ := List.mem_map.1 hmem
    obtain ⟨rfl, -⟩ := Prod.mk.inj heq
    have hne : r.resolve id' ≠ id' := of_decide_eq_true (List.mem_filter.1 hid').2
    exact Path.blank_not_mem_of_isValid (isValid_of_resolve_ne hr hne)
  | registered path name =>
    have hmem : (path, name) ∈ log.filterMap Event.registration? :=
      List.mem_filterMap.2 ⟨_, he, rfl⟩
    obtain ⟨p, hp, hpath, -⟩ := exists_of_forall₂ htells.registrations.flip hmem
    have hvalid := hr.isValid_resolve (isValid_of_mem_packages hp)
    rw [← hpath] at hvalid
    exact Path.blank_not_mem_of_isValid hvalid
  | _ => trivial

/-- **The log is a faithful account of a run.** Its lines at the level of debugging can be told
apart: each stands in it as often as its event was reported. Every library has a line for its
confirmation if it is confirmed, and no second one. The packages and libraries of the document
come with the names that their redirected ids own from then on, whatever comes `later`. A
redirection is told once for every id that was to be bound and is redirected, and for nothing else.
And every block that was resolved comes with its number of imports. -/
theorem log_tells_run {ρ : Renaming} (hρ : ρ.Distinct) (seed : List Scope.Command)
    (hr : r.Built) (steps later : List Step) :
    let s := start ((Scope.empty ρ).performAll seed).1 r
    let h := s.history steps
    let log := s.events steps
    let lines := Event.lines (some .debug) log
    let names := (s.after (steps ++ later)).scope
    lines = log.map Event.line ∧ (∀ e ∈ log, e.Legible) ∧
      (∀ e : Event, e.Legible → lines.count e.line = log.count e) ∧
      (∀ l, lines.count (Event.confirmed l).line =
        if (s.after steps).isConfirmed l then 1 else 0) ∧
      List.Forall₂ (fun p e => e.1 = r.resolve p.path ∧ names.nameOf? e.1 = some e.2 ∧
        names.idOf? e.2 = some e.1) h.packages (log.filterMap Event.registration?) ∧
      List.Forall₂ (fun l e => e.1 = l ∧ names.nameOf? (r.resolve l.name) = some e.2 ∧
        names.idOf? e.2 = some (r.resolve l.name)) h.offered (log.filterMap Event.offer?) ∧
      log.filterMap Event.redirection? =
        (h.requested.filter fun id => r.resolve id ≠ id).map (fun id => (id, r.resolve id)) ∧
      log.filterMap Event.resolution? = h.blocks.map (·.imports.length) := by
  intro s h log lines names
  obtain ⟨hnodup, hall⟩ := unconfirmed_start ((Scope.empty ρ).performAll seed).1 r
  have htells : Tells r names log h.requested h.packages h.offered h.blocks :=
    tells_run hnodup steps (bindings_isPrefix_after_append _ r steps later)
  have hlines : lines = log.map Event.line := Event.lines_debug log
  have hlegible : ∀ e ∈ log, e.Legible := htells.legible hr.between
  have hcount : ∀ e : Event, e.Legible → lines.count e.line = log.count e := by
    intro e he
    rw [hlines]
    exact Event.Legible.count_line hlegible he
  have hunique : names.Unique := unique_after hρ r seed (steps ++ later)
  refine ⟨hlines, hlegible, hcount, ?_, ?_, ?_, htells.redirections, htells.resolutions⟩
  · -- no library is confirmed in the beginning
    intro l
    rw [hcount (.confirmed l) trivial, tellsConfirmed_run hnodup steps l,
      isConfirmed]
    simp [s, hall l]
  · exact htells.registrations.imp fun p e he =>
      ⟨he.1, he.2, hunique.idOf?_eq_some_iff_nameOf?.2 he.2⟩
  · exact htells.offers.imp fun l e he =>
      ⟨he.1, he.2, hunique.idOf?_eq_some_iff_nameOf?.2 he.2⟩

/-- The log of a run with a reservation that fails, packages that are asked for twice, a second
document, a confirmation that is repeated and blocks before and after it. -/
theorem log_tells_run_of_fork :
    let r : Redirection := ⟨⟨[("fmt", "example.com/fmt"), ("bytes", "example.com/buffer")]⟩⟩
    let features : Features := { Features.empty with genDeepEqual := true }
    let d : Document := { Document.empty "a.thrift" with
      enums := [⟨"Color", []⟩], structs := [⟨"Point", []⟩] }
    let steps : List Step := [.resolve, .scope (.reserve "fmt" "fmt"), .document features d,
      .document features d, .scope (.get "fmt"), .resolve, .confirm "strings", .confirm "strings",
      .scope (.add "b" "bytes"), .resolve]
    let s := start ((Scope.empty .numbered).performAll [.add "fmt" "local"]).1 r
    let log := s.events steps
    let lines := Event.lines (some .debug) log
    Renaming.numbered.Distinct ∧ r.Built ∧
      lines.count (Event.confirmed .strings).line = 1 ∧
      lines.count (Event.confirmed .bytes).line = 0 ∧
      log.filterMap Event.redirection? = [("fmt", "example.com/fmt"), ("fmt", "example.com/fmt"),
        ("fmt", "example.com/fmt"), ("bytes", "example.com/buffer"),
        ("bytes", "example.com/buffer")] ∧
      log.filterMap Event.resolution? = [3, 5] := by
  intro r features d steps s log lines
  have hbuilt : r.Built := .ofList
    (show Redirection.ofList [("fmt", "example.com/fmt"), ("bytes", "example.com/buffer")] = .ok r
      by rfl)
  obtain ⟨-, -, -, hconfirmed, -, -, hredirections, hresolutions⟩ :=
    log_tells_run Renaming.numbered_distinct [.add "fmt" "local"] hbuilt steps []
  refine ⟨Renaming.numbered_distinct, hbuilt, (hconfirmed .strings).trans (by decide),
    (hconfirmed .bytes).trans (by decide), hredirections.trans (by decide),
    hresolutions.trans (by decide)⟩

end Session

end ImportPlan
