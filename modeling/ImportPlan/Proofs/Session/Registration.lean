import ImportPlan.Proofs.Session.Suppression

namespace ImportPlan

/-!
# What a document registers

A session registers a document in one go, and libraries may be confirmed before and after. The scope
then holds the rule table under redirection, and the block lists it without the libraries that are
not confirmed.

* `Scope.bindings_addAll` — additions under names of their own bind the first entry for each new id.
* `Session.confirmations` — the steps that confirm libraries.
* `Session.history_registering` — the history of a run that registers a document.
* `Session.bindings_registering` — the bindings that a document leaves are the rule table.
* `Session.registers_ruleTable` — these bindings, and the imports when nothing is redirected.
-/

/-! ### Additions under names of their own -/

/-- If no name stands for two ids, additions bind the first entry for each id that owns no name yet,
and each under the name asked for. -/
theorem Scope.bindings_addAll {s : Scope} {entries : List (String × String)}
    (hs : ∀ e ∈ entries, e.1 ∈ s.names → e.2 ∈ s.ids)
    (hentries : ∀ e ∈ entries, ∀ e' ∈ entries, e.1 = e'.1 → e.2 = e'.2) :
    (s.addAll entries).bindings = s.bindings ++
      (firstOfEach (·.id) (entries.map fun e => Binding.mk e.1 e.2)).filter
        fun b => b.id ∉ s.ids := by
  induction entries generalizing s with
  | nil => exact (List.append_nil _).symm
  | cons e rest ih =>
    have hrest : ∀ e' ∈ rest, ∀ e'' ∈ rest, e'.1 = e''.1 → e'.2 = e''.2 := fun e' he' e'' he'' =>
      hentries e' (List.mem_cons_of_mem e he') e'' (List.mem_cons_of_mem e he'')
    have hstep : s.addAll (e :: rest) = (s.add e.1 e.2).1.addAll rest := rfl
    rw [hstep, List.map_cons, firstOfEach_cons]
    rcases add_cases s e.1 e.2 with ⟨hid, heq⟩ | ⟨hid, heq⟩
    · -- the id owns a name, so neither this entry nor a later one for it is bound
      rw [heq, ih (fun e' he' => hs e' (List.mem_cons_of_mem e he')) hrest,
        List.filter_cons_of_neg (by simpa using hid), List.filter_filter]
      congr 1
      refine List.filter_congr fun b _ => ?_
      by_cases hb : b.id = e.2
      · simp [hb, hid]
      · simp [hb]
    · -- the name is free, since a name that is owned stands for its own id only
      have hname : e.1 ∉ s.names := fun howned => hid (hs e List.mem_cons_self howned)
      have hbind : (s.add e.1 e.2).1 = s.bind e.1 e.2 := by
        rw [heq, freeName_of_not_mem hname]
      have hs' : ∀ e' ∈ rest, e'.1 ∈ (s.bind e.1 e.2).names → e'.2 ∈ (s.bind e.1 e.2).ids := by
        intro e' he' howned
        rw [names_bind, List.mem_append, List.mem_singleton] at howned
        rw [ids_bind, List.mem_append, List.mem_singleton]
        rcases howned with hbefore | hsame
        · exact .inl (hs e' (List.mem_cons_of_mem e he') hbefore)
        · exact .inr (hentries e' (List.mem_cons_of_mem e he') e List.mem_cons_self hsame)
      rw [hbind, ih hs' hrest, bindings_bind, List.append_assoc, List.singleton_append,
        List.filter_cons_of_pos (by simpa using hid), List.filter_filter]
      congr 2
      refine List.filter_congr fun b _ => ?_
      simp [ids_bind]

/-- Whether a registration is imported when these libraries are confirmed. -/
def Registration.isShown (used : List Library) : Registration → Bool
  | .required _ => true
  | .tentative l => l ∈ used

namespace Session

/-! ### A run that registers a document -/

/-- The steps that confirm libraries. -/
def confirmations (used : List Library) : List Step := used.map fun l => .confirm l.name

/-- The steps that register a document, with confirmations before and after. -/
def registering (features : Features) (d : Document) (used used' : List Library) : List Step :=
  confirmations used ++ .document features d :: confirmations used'

/-- Confirmations are accepted in every state. -/
theorem history_confirmations (s : Session) (used : List Library) :
    s.history (confirmations used) = used.map fun l => (.confirm l.name, .confirmed l) := by
  induction used generalizing s with
  | nil => rfl
  | cons l used ih =>
    have hname : Library.ofName l.name = .ok l := Library.ofName_eq_ok_iff.2 rfl
    have hreply : (s.step (.confirm l.name)).2.1 = .confirmed l := by
      simp only [step, hname]
    rw [List.map_cons, ← ih (s.step (.confirm l.name)).1, ← hreply]
    rfl

/-- The document is accepted whatever has been confirmed. -/
theorem history_registering (scope : Scope) (r : Redirection) (features : Features) (d : Document)
    (used used' : List Library) :
    (start scope r).history (registering features d used used') =
      (used.map fun l => (.confirm l.name, .confirmed l))
        ++ (.document features d, .registered)
          :: used'.map fun l => (.confirm l.name, .confirmed l) := by
  -- confirmations register no document, so this one is the first
  have hfirst : ((start scope r).after (confirmations used)).hasDocument = false := by
    rw [← Bool.not_eq_true, (leads_start scope r (confirmations used)).hasDocument,
      history_confirmations]
    simp [start]
  have hreply : (((start scope r).after (confirmations used)).step (.document features d)).2.1 =
      .registered := by
    simp [step, registerDocument, hfirst]
  rw [registering, history_append, history_confirmations, history_cons, hreply,
    history_confirmations, List.singleton_append]

/-- Where confirmations count for nothing, such a history amounts to its document. -/
theorem flatMap_history_registering {α : Type} {f : Step → Reply → List α}
    (hf : ∀ l, f (.confirm l.name) (.confirmed l) = []) (scope : Scope) (r : Redirection)
    (features : Features) (d : Document) (used used' : List Library) :
    (((start scope r).history (registering features d used used')).flatMap fun e => f e.1 e.2) =
      f (.document features d) .registered := by
  have hsilent : ∀ used : List Library,
      (used.flatMap fun l => f (.confirm l.name) (.confirmed l)) = [] := by
    intro used
    exact List.flatMap_eq_nil_iff.2 fun l _ => hf l
  rw [history_registering, List.flatMap_append, List.flatMap_cons, List.flatMap_map,
    List.flatMap_map, hsilent, hsilent, List.nil_append, List.append_nil]

/-- The commands to the scope are those of the document. -/
theorem commands_registering (scope : Scope) (r : Redirection) (features : Features) (d : Document)
    (used used' : List Library) :
    ((start scope r).history (registering features d used used')).commands r =
      (Rules.registrations features d).map fun g => .add g.name (r.resolve g.id) :=
  flatMap_history_registering (fun _ => rfl) scope r features d used used'

/-- The ids required are those of the document. -/
theorem required_registering (scope : Scope) (r : Redirection) (features : Features) (d : Document)
    (used used' : List Library) :
    ((start scope r).history (registering features d used used')).required =
      (Rules.requiredPackages features d).map (·.path) :=
  flatMap_history_registering (fun _ => rfl) scope r features d used used'

/-- The libraries confirmed are those of the steps before and after the document. -/
theorem confirmed_registering (scope : Scope) (r : Redirection) (features : Features)
    (d : Document) (used used' : List Library) :
    ((start scope r).history (registering features d used used')).confirmed = used ++ used' := by
  rw [History.confirmed, history_registering, List.flatMap_append, List.flatMap_cons,
    List.flatMap_map, List.flatMap_map]
  simp [confirmedBy]

/-! ### Bindings and imports -/

variable (ρ : Renaming) (r : Redirection) (features : Features) (d : Document)
  (used used' : List Library)

/-- **A document leaves the rule table in the scope**: of the rules whose ids are redirected to one
path the first one is bound, and each under its own name. -/
theorem bindings_registering :
    ((start (.empty ρ) r).after (registering features d used used')).scope.bindings =
      firstOfEach (·.id)
        ((Rules.ruleTable features d).map fun g => ⟨g.name, r.resolve g.id⟩) := by
  let entries := (Rules.registrations features d).map fun g => (g.name, r.resolve g.id)
  have hscope : ((start (.empty ρ) r).after (registering features d used used')).scope =
      (Scope.empty ρ).addAll entries := by
    have hcommands := commands_registering (.empty ρ) r features d used used'
    have hlead := (leads_start (.empty ρ) r (registering features d used used')).scope
    rw [hlead, ← Scope.performAll_add, List.map_map]
    exact congrArg (fun cs => ((Scope.empty ρ).performAll cs).1) hcommands
  -- a name is asked for with one id only, so every entry gets the name that it asks for
  have hnames : ∀ e ∈ entries, ∀ e' ∈ entries, e.1 = e'.1 → e.2 = e'.2 := by
    intro e he e' he' heq
    obtain ⟨g, hg, rfl⟩ := List.mem_map.1 he
    obtain ⟨g', hg', rfl⟩ := List.mem_map.1 he'
    have hall := Rules.registrations_subset features d
    exact congrArg r.resolve (Registration.id_eq_of_name_eq g (hall hg) g' (hall hg') heq)
  -- equal registrations are redirected to one path
  have hfiner : ∀ g g' : Registration, id g = id g' → r.resolve g.id = r.resolve g'.id := by
    rintro g _ rfl
    rfl
  have hrepeated := firstOfEach_firstOfEach hfiner (Rules.registrations features d)
  rw [hscope, Scope.bindings_addAll (by simp) hnames, List.filter_eq_self.2 (by simp),
    List.map_map, firstOfEach_map, firstOfEach_map, ← Rules.firstOfEach_registrations]
  exact congrArg (List.map fun g => Binding.mk g.name (r.resolve g.id)) hrepeated.symm

/-- Where nothing is redirected, every rule is bound. -/
theorem bindings_registering_empty :
    ((start (.empty ρ) .empty).after (registering features d used used')).scope.bindings =
      (Rules.ruleTable features d).map fun g => ⟨g.name, g.id⟩ := by
  rw [bindings_registering, firstOfEach_of_nodup]
  · rfl
  · rw [List.map_map]
    exact Rules.nodup_map_id_ruleTable features d

/-- Where nothing is redirected, of the rule table just the libraries are held back that are not
confirmed. -/
theorem holdsBack_registering_iff {g : Registration} (hg : g ∈ Rules.ruleTable features d) :
    ((start (.empty ρ) .empty).history (registering features d used used')).HoldsBack .empty g.id ↔
      g.isShown (used ++ used') = false := by
  have hinj := List.inj_on_of_nodup_map Registration.nodup_map_id_all
  have hall := Rules.registrations_subset features d
  rw [History.HoldsBack, required_registering, confirmed_registering]
  simp only [Redirection.resolve_empty]
  rw [Rules.mem_ruleTable_iff] at hg
  cases g with
  | required p =>
    have hp : p ∈ Rules.requiredPackages features d := by
      simpa [Rules.registrations] using hg
    simp only [Registration.isShown, Bool.true_eq_false, iff_false, not_and]
    exact fun hrequired _ => hrequired p.path (List.mem_map_of_mem hp) rfl
  | tentative l =>
    -- no required package has the id of a library
    have hnone : ∀ id ∈ (Rules.requiredPackages features d).map (·.path), id ≠ l.name := by
      intro id hid heq
      obtain ⟨p, hp, rfl⟩ := List.mem_map.1 hid
      have hmem : Registration.required p ∈ Rules.registrations features d :=
        List.mem_append_left _ (List.mem_map_of_mem hp)
      exact absurd (hinj (hall hmem) (hall hg) heq) (by simp)
    simp only [Registration.isShown, Library.name_inj, exists_eq_right, and_iff_right hnone,
      Registration.id, decide_eq_false_iff_not]

/-- Where nothing is redirected, the block lists the rules without the unconfirmed libraries. -/
theorem imports_registering_empty :
    ((start (.empty ρ) .empty).after (registering features d used used')).block.imports =
      ((Rules.ruleTable features d).filter (·.isShown (used ++ used'))).map
        fun g => (g.id, "") := by
  have hnodup : (((Rules.ruleTable features d).map fun g => Binding.mk g.name g.id).map
      (·.id)).Nodup := by
    rw [List.map_map]
    exact Rules.nodup_map_id_ruleTable features d
  have hshown : ∀ g ∈ Rules.ruleTable features d,
      (!decide (((start (.empty ρ) .empty).history
        (registering features d used used')).HoldsBack .empty g.id)) =
      g.isShown (used ++ used') := by
    intro g hg
    rw [Bool.eq_iff_iff, Bool.not_eq_true', decide_eq_false_iff_not,
      holdsBack_registering_iff ρ features d used used' hg, Bool.not_eq_false]
  rw [block_after_eq, bindings_registering_empty, Block.imports_ofBindings _ hnodup,
    List.filter_map, List.map_map, ← List.filter_congr hshown]
  -- no registration needs an alias under the name it asks for
  refine List.map_congr_left fun g hg => ?_
  have hmem : g ∈ Registration.all := Rules.registrations_subset features d
    (Rules.mem_ruleTable_iff.1 (List.mem_of_mem_filter hg))
  exact congrArg (Prod.mk g.id) (Registration.shownAlias_eq_empty g hmem)

/-- The document is registered. -/
theorem hasDocument_registering :
    ((start (.empty ρ) r).after (registering features d used used')).hasDocument = true := by
  rw [(leads_start (.empty ρ) r _).hasDocument, history_registering]
  simp

/-- **What a document registers.** Whatever its declarations and the features, and whichever
libraries are confirmed before and after, the scope holds the rule table under redirection, without
the rules whose path an earlier rule has, and each rule under its own name. Where nothing is
redirected, the block lists the rule table in order without the unconfirmed libraries. -/
theorem registers_ruleTable :
    ((start (.empty ρ) r).after (registering features d used used')).hasDocument = true ∧
      ((start (.empty ρ) r).after (registering features d used used')).scope.bindings =
        firstOfEach (·.id)
          ((Rules.ruleTable features d).map fun g => ⟨g.name, r.resolve g.id⟩) ∧
      ∃ b, ((start (.empty ρ) .empty).after (registering features d used used')).resolve.1 = .ok b ∧
        b.imports = ((Rules.ruleTable features d).filter (·.isShown (used ++ used'))).map
          fun g => (g.id, "") := by
  have hdocument := hasDocument_registering ρ .empty features d used used'
  exact ⟨hasDocument_registering ρ r features d used used',
    bindings_registering ρ r features d used used', _, resolve_of_hasDocument hdocument,
    imports_registering_empty ρ features d used used'⟩

end Session

end ImportPlan
