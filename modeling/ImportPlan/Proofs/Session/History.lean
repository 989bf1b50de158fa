import ImportPlan.Proofs.Session.Effects

namespace ImportPlan.Session

/-!
# Histories of a session

What a run has asked of a session, step by step with the replies, and how the state after the run
follows from it.

* `Session.history`, `Session.after`, `Session.events` — the history of a run, the state that it
  ends in, and what it reports.
* `History.required`, `History.offered`, `History.confirmed` — the ids that were registered for
  certain, the libraries that were registered tentatively, and the libraries that were confirmed.
* `Leads` — the state after a history, in terms of the state before and the history alone.
* `leads_step`, `leads_run` — a step and a run lead to the state that they end in.
-/

/-- The steps that a session was asked to carry out, each with its reply. -/
abbrev History := List (Step × Reply)

/-- The history of a run. -/
def history (s : Session) (steps : List Step) : History := steps.zip (s.run steps).2.1

/-- The session after a run. -/
def after (s : Session) (steps : List Step) : Session := (s.run steps).1

/-- The events of a run. -/
def events (s : Session) (steps : List Step) : List Event := (s.run steps).2.2

theorem history_cons (s : Session) (p : Step) (ps : List Step) :
    s.history (p :: ps) = [(p, (s.step p).2.1)] ++ (s.step p).1.history ps := rfl

theorem after_cons (s : Session) (p : Step) (ps : List Step) :
    s.after (p :: ps) = (s.step p).1.after ps := rfl

theorem events_cons (s : Session) (p : Step) (ps : List Step) :
    s.events (p :: ps) = (s.step p).2.2 ++ (s.step p).1.events ps := rfl

theorem history_append (s : Session) (ps qs : List Step) :
    s.history (ps ++ qs) = s.history ps ++ (s.after ps).history qs := by
  induction ps generalizing s with
  | nil => rfl
  | cons p ps ih =>
    rw [List.cons_append, history_cons, ih, history_cons, after_cons, List.append_assoc]

theorem after_append (s : Session) (ps qs : List Step) :
    s.after (ps ++ qs) = (s.after ps).after qs := by
  induction ps generalizing s with
  | nil => rfl
  | cons p ps ih => rw [List.cons_append, after_cons, ih, after_cons]

/-! ### What a history has registered and confirmed -/

/-- The ids that a step registers for certain: those of the packages that a document asks for, and
those that are added or reserved. -/
def requiredBy : Step → Reply → List String
  | .scope (.add _ id), _ => [id]
  | .scope (.reserve _ id), .scope (.reserved true) => [id]
  | .scope (.demand _ id), .scope .done => [id]
  | .document features d, .registered => (Rules.requiredPackages features d).map (·.path)
  | _, _ => []

/-- The libraries that a step registers tentatively. -/
def offeredBy : Step → Reply → List Library
  | .document features _, .registered => Rules.tentativeLibraries features
  | _, _ => []

/-- The libraries that a step confirms. -/
def confirmedBy : Step → Reply → List Library
  | .confirm _, .confirmed l => [l]
  | _, _ => []

/-- The commands that a step gives to the scope, about redirected ids. -/
def commandsBy (r : Redirection) : Step → Reply → List Scope.Command
  | .scope c, _ => [c.mapId r.resolve]
  | .document features d, .registered =>
    (Rules.registrations features d).map fun g => .add g.name (r.resolve g.id)
  | _, _ => []

namespace History

/-- All ids that were registered for certain. -/
def required (h : History) : List String := h.flatMap fun e => requiredBy e.1 e.2

/-- All libraries that were registered tentatively. -/
def offered (h : History) : List Library := h.flatMap fun e => offeredBy e.1 e.2

/-- All libraries that were confirmed. -/
def confirmed (h : History) : List Library := h.flatMap fun e => confirmedBy e.1 e.2

/-- All commands that were given to the scope. -/
def commands (h : History) (r : Redirection) : List Scope.Command :=
  h.flatMap fun e => commandsBy r e.1 e.2

variable (h h' : History)

@[simp] theorem required_append : (h ++ h').required = h.required ++ h'.required :=
  List.flatMap_append

@[simp] theorem offered_append : (h ++ h').offered = h.offered ++ h'.offered :=
  List.flatMap_append

@[simp] theorem confirmed_append : (h ++ h').confirmed = h.confirmed ++ h'.confirmed :=
  List.flatMap_append

@[simp] theorem commands_append (r : Redirection) :
    (h ++ h').commands r = h.commands r ++ h'.commands r :=
  List.flatMap_append

variable (p : Step) (reply : Reply)

@[simp] theorem required_singleton : required [(p, reply)] = requiredBy p reply :=
  List.append_nil _

@[simp] theorem offered_singleton : offered [(p, reply)] = offeredBy p reply :=
  List.append_nil _

@[simp] theorem confirmed_singleton : confirmed [(p, reply)] = confirmedBy p reply :=
  List.append_nil _

@[simp] theorem commands_singleton (r : Redirection) :
    commands [(p, reply)] r = commandsBy r p reply :=
  List.append_nil _

end History

/-- A scope command registers the id that it asks to bind for certain, if it is granted. -/
theorem mem_requiredBy_scope (s : Scope) (f : String → String) (c : Scope.Command) (id : String) :
    id ∈ requiredBy (.scope c) (.scope (s.perform (c.mapId f)).2) ↔
      (s.perform (c.mapId f)).2.granted = true ∧ c.target? = some id := by
  cases c with
  | add name id' =>
    simp [requiredBy, Scope.Command.mapId, Scope.perform, Scope.Answer.granted,
      Scope.Command.target?, eq_comm]
  | get id' => simp [requiredBy, Scope.Command.target?]
  | reserve name id' =>
    simp only [Scope.Command.mapId, Scope.perform]
    cases (s.reserve name (f id')).2 <;>
      simp [requiredBy, Scope.Answer.granted, Scope.Command.target?, eq_comm]
  | demand name id' =>
    simp only [Scope.Command.mapId, Scope.perform_demand]
    cases (s.reserve name (f id')).2 <;>
      simp [requiredBy, Scope.Answer.granted, Scope.Command.target?, eq_comm]
  | list limit => simp [requiredBy, Scope.Command.target?]

/-! ### From a history to the state after it -/

/-- The history `h` leads from `s` to `s'`: each part of `s'` follows from the same part of `s` and
from what was registered and confirmed. -/
structure Leads (s : Session) (h : History) (s' : Session) : Prop where
  redirection : s'.redirection = s.redirection
  scope : s'.scope = (s.scope.performAll (h.commands s.redirection)).1
  mem_ids : ∀ path, path ∈ s'.scope.ids ↔ path ∈ s.scope.ids ∨
    (∃ id ∈ h.required, s.redirection.resolve id = path) ∨
    ∃ l ∈ h.offered, s.redirection.resolve l.name = path
  mem_pinned : ∀ path, path ∈ s'.pinned ↔ path ∈ s.pinned ∨
    ∃ id ∈ h.required, s.redirection.resolve id = path
  unconfirmed_nodup : s'.unconfirmed.Nodup
  mem_unconfirmed : ∀ l, l ∈ s'.unconfirmed ↔ l ∈ s.unconfirmed ∧ l ∉ h.confirmed
  hasDocument : s'.hasDocument = true ↔ s.hasDocument = true ∨ ∃ e ∈ h, e.2 = .registered

/-- The empty history leads nowhere else. -/
theorem Leads.refl {s : Session} (hs : s.unconfirmed.Nodup) : Leads s [] s where
  redirection := rfl
  scope := rfl
  mem_ids := by simp [History.required, History.offered]
  mem_pinned := by simp [History.required]
  unconfirmed_nodup := hs
  mem_unconfirmed := by simp [History.confirmed]
  hasDocument := by simp

/-- Histories lead on from where they end. -/
theorem Leads.trans {s s' s'' : Session} {h h' : History} (h₁ : Leads s h s')
    (h₂ : Leads s' h' s'') : Leads s (h ++ h') s'' where
  redirection := h₂.redirection.trans h₁.redirection
  scope := by
    rw [h₂.scope, h₁.scope, h₁.redirection, History.commands_append, Scope.performAll_append]
  mem_ids := by
    -- what either history registers owns a name in the end; nothing loses its name in between
    intro path
    rw [h₂.mem_ids, h₁.mem_ids, h₁.redirection, History.required_append, History.offered_append]
    simp only [List.mem_append]
    grind
  mem_pinned := by
    intro path
    rw [h₂.mem_pinned, h₁.mem_pinned, h₁.redirection, History.required_append]
    simp only [List.mem_append]
    grind
  unconfirmed_nodup := h₂.unconfirmed_nodup
  mem_unconfirmed := by
    intro l
    rw [h₂.mem_unconfirmed, h₁.mem_unconfirmed, History.confirmed_append, List.mem_append]
    tauto
  hasDocument := by
    rw [h₂.hasDocument, h₁.hasDocument]
    simp only [List.mem_append]
    grind

/-- A step that leaves the session as it is, and registers and confirms nothing. -/
theorem Leads.of_silent {s : Session} (hs : s.unconfirmed.Nodup) {p : Step} {reply : Reply}
    (hrequired : requiredBy p reply = []) (hoffered : offeredBy p reply = [])
    (hconfirmed : confirmedBy p reply = []) (hcommands : commandsBy s.redirection p reply = [])
    (hreply : reply ≠ .registered) : Leads s [(p, reply)] s where
  redirection := rfl
  scope := by rw [History.commands_singleton, hcommands]; rfl
  mem_ids := by simp [hrequired, hoffered]
  mem_pinned := by simp [hrequired]
  unconfirmed_nodup := hs
  mem_unconfirmed := by simp [hconfirmed]
  hasDocument := by simp [hreply]

/-- A scope command leads to what it does to the scope, with its id pinned if it is granted. -/
theorem leads_scope {s : Session} (hs : s.unconfirmed.Nodup) (c : Scope.Command) :
    Leads s [(.scope c, .scope (s.perform c).2.1)] (s.perform c).1 where
  redirection := by rw [perform_eq]
  scope := by rw [perform_eq, History.commands_singleton]; rfl
  mem_ids := by
    intro path
    have hids := Scope.mem_ids_perform s.scope (c.mapId s.redirection.resolve) path
    rw [perform_eq, History.required_singleton, History.offered_singleton, answer_perform]
    refine hids.trans (or_congr_right ?_)
    rw [Scope.Command.target?_mapId]
    simp [mem_requiredBy_scope, offeredBy, and_assoc]
  mem_pinned := by
    intro path
    rw [mem_pinned_perform, answer_perform, History.required_singleton]
    simp [mem_requiredBy_scope, and_assoc]
  unconfirmed_nodup := by rwa [perform_eq]
  mem_unconfirmed := by
    intro l
    rw [perform_eq]
    simp [confirmedBy]
  hasDocument := by rw [perform_eq]; simp

/-- The ids of the registrations of a document, redirected: those of the packages that it requires
and those of the libraries that it offers. -/
theorem exists_mem_registrations_iff (features : Features) (d : Document) (r : Redirection)
    (path : String) :
    (∃ g ∈ Rules.registrations features d, r.resolve g.id = path) ↔
      (∃ id ∈ (Rules.requiredPackages features d).map (·.path), r.resolve id = path) ∨
      ∃ l ∈ Rules.tentativeLibraries features, r.resolve l.name = path := by
  simp [Rules.registrations, or_and_right, exists_or, Registration.id]

/-- The first document leads to its registrations. -/
theorem leads_document {s : Session} (hs : s.unconfirmed.Nodup) (features : Features)
    (d : Document) :
    Leads s [(.document features d, .registered)]
      ({ s with hasDocument := true }.registerAll (Rules.registrations features d)).1 where
  redirection := by rw [registerAll_eq]
  scope := by
    rw [registerAll_eq, ← Scope.performAll_add, History.commands_singleton, List.map_map]
    rfl
  mem_ids := by
    intro path
    have hids := exists_mem_registrations_iff features d s.redirection path
    rw [registerAll_eq, Scope.mem_ids_addAll, History.required_singleton,
      History.offered_singleton]
    -- each registration is either required or offered
    refine or_congr_right (Iff.trans ?_ hids)
    simp
  mem_pinned := by
    intro path
    have hrequired : (Rules.registrations features d).filterMap (·.requiredId?) =
        (Rules.requiredPackages features d).map (·.path) := by
      simp [Rules.registrations, Registration.requiredId?, List.filterMap_map]
    rw [registerAll_eq, hrequired, History.required_singleton]
    simp [requiredBy, or_comm]
  unconfirmed_nodup := by rwa [registerAll_eq]
  mem_unconfirmed := by
    intro l
    rw [registerAll_eq]
    simp [confirmedBy]
  hasDocument := by rw [registerAll_eq]; simp

/-- A confirmation takes its library off the unconfirmed ones. -/
theorem leads_confirm {s : Session} (hs : s.unconfirmed.Nodup) (name : String) (l : Library) :
    Leads s [(.confirm name, .confirmed l)]
      { s with unconfirmed := s.unconfirmed.erase l } where
  redirection := rfl
  scope := rfl
  mem_ids := by simp [requiredBy, offeredBy]
  mem_pinned := by simp [requiredBy]
  unconfirmed_nodup := hs.erase l
  mem_unconfirmed := by
    intro m
    rw [hs.mem_erase_iff, History.confirmed_singleton]
    simp [confirmedBy, and_comm]
  hasDocument := by simp

/-- Whatever a step comes to, its reply leads there. -/
theorem StepsTo.leads {s s' : Session} {p : Step} {reply : Reply} (h : s.StepsTo p s' reply)
    (hs : s.unconfirmed.Nodup) : Leads s [(p, reply)] s' := by
  -- scope commands, first documents and confirmations change the session; all else is silent
  cases h with
  | performed c => exact leads_scope hs c
  | registered features d _ => exact leads_document hs features d
  | confirmed l => exact leads_confirm hs l.name l
  | _ => exact Leads.of_silent hs rfl rfl rfl rfl (by simp)

/-- **A step leads to the state that it ends in.** -/
theorem leads_step {s : Session} (hs : s.unconfirmed.Nodup) (p : Step) :
    Leads s [(p, (s.step p).2.1)] (s.step p).1 :=
  (stepsTo_step s p).leads hs

/-- **A run leads to the state that it ends in**, whatever its steps and their order. -/
theorem leads_run {s : Session} (hs : s.unconfirmed.Nodup) (steps : List Step) :
    Leads s (s.history steps) (s.after steps) := by
  induction steps generalizing s with
  | nil => exact Leads.refl hs
  | cons p ps ih =>
    have hfirst := leads_step hs p
    exact hfirst.trans (ih hfirst.unconfirmed_nodup)

/-- No library is confirmed when a session starts, and each is listed once. -/
theorem unconfirmed_start (scope : Scope) (r : Redirection) :
    (start scope r).unconfirmed.Nodup ∧ ∀ l, l ∈ (start scope r).unconfirmed := by
  constructor
  · show Library.all.Nodup
    decide
  · intro l
    show l ∈ Library.all
    cases l <;> decide

/-- What a started session has become after a run. -/
theorem leads_start (scope : Scope) (r : Redirection) (steps : List Step) :
    Leads (start scope r) ((start scope r).history steps) ((start scope r).after steps) :=
  leads_run (unconfirmed_start scope r).1 steps

/-- After a run, the libraries are unconfirmed that its history does not confirm. -/
theorem mem_unconfirmed_after (scope : Scope) (r : Redirection) (steps : List Step) (l : Library) :
    l ∈ ((start scope r).after steps).unconfirmed ↔
      l ∉ ((start scope r).history steps).confirmed := by
  rw [(leads_start scope r steps).mem_unconfirmed]
  exact and_iff_right ((unconfirmed_start scope r).2 l)

end ImportPlan.Session
