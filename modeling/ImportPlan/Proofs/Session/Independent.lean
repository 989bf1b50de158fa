import ImportPlan.Proofs.Block.Rendering
import ImportPlan.Proofs.Redirection.Entries
import ImportPlan.Proofs.Session.History

namespace ImportPlan

/-!
# Additions in any order

Templates add packages as they come to code that needs them. Where the packages do not get in each
other's way, it makes no difference which of them comes first.

* `Block.imports_ofBindings_append` — new bindings that are not held back come behind all imports.
* `Session.Independent` — entries whose names and redirected ids are new and differ from each other.
* `Session.additions` — the steps that add entries in turn.
* `Session.Independent.step` — an addition binds the name asked for and leaves the rest independent.
* `Session.Independent.after_eq`, `Session.Independent.history_eq` — what additions in turn lead to.
* `Session.Independent.nameOf?_after` — the ids that are added own the names asked for.
* `Session.Independent.imports_after` — they are imported behind all imports that are there.
* `Session.additions_commute` — so entries can be added in any order.
-/

namespace Block

/-- Which paths are held back only matters for those that are bound. -/
theorem ofBindings_congr {isHeldBack isHeldBack' : String → Bool} {bindings : List Binding}
    (h : ∀ b ∈ bindings, isHeldBack b.id = isHeldBack' b.id) :
    ofBindings isHeldBack bindings = ofBindings isHeldBack' bindings := by
  rw [ofBindings, ofBindings, List.filter_congr fun b hb => by rw [h b hb]]

/-- Bindings of new ids that are not held back come behind all imports, in their order. -/
theorem imports_ofBindings_append {isHeldBack : String → Bool} {bindings new : List Binding}
    (hids : (new.map (·.id)).Nodup) (hnew : ∀ b ∈ new, b.id ∉ bindings.map (·.id))
    (hshown : ∀ b ∈ new, isHeldBack b.id = false) :
    (ofBindings isHeldBack (bindings ++ new)).imports =
      (ofBindings isHeldBack bindings).imports ++
        new.map fun b => (b.id, Path.shownAlias b.name b.id) := by
  have hall : new.filter (fun b => !isHeldBack b.id) = new :=
    List.filter_eq_self.2 fun b hb => by rw [hshown b hb]; rfl
  rw [imports, ofBindings, List.filter_append, hall, List.map_append, Table.ofList,
    List.foldl_append]
  refine Table.entries_foldl_insert _ _ ?_
  rw [List.map_append, List.map_map]
  refine (Table.nodup_keys_ofList _).append hids ?_
  -- the keys before are ids that are bound, so that no new one is among them
  intro key hold hkey
  obtain ⟨b, hb, rfl⟩ := List.mem_map.1 hkey
  obtain ⟨e, he, hid⟩ := List.mem_map.1 hold
  obtain ⟨b', hb', rfl⟩ := List.mem_map.1 (Table.mem_entries_ofList_iff.1 he).mem
  exact hnew b hb (List.mem_map.2 ⟨b', List.mem_of_mem_filter hb', hid⟩)

end Block

namespace Session

/-- Entries can be added without getting in each other's way: no name is owned or comes twice, and
no id, once it is redirected, owns a name or comes twice. -/
structure Independent (s : Session) (entries : List (String × String)) : Prop where
  names : (entries.map (·.1)).Nodup
  free : ∀ e ∈ entries, s.scope.idOf? e.1 = none
  ids : (entries.map fun e => s.redirection.resolve e.2).Nodup
  new : ∀ e ∈ entries, s.scope.nameOf? (s.redirection.resolve e.2) = none

/-- The steps that add entries, names with their ids, in turn. -/
def additions (entries : List (String × String)) : List Step :=
  entries.map fun e => .scope (.add e.1 e.2)

/-- The session in which an entry has been bound as asked, and pinned. -/
def bound (s : Session) (e : String × String) : Session :=
  { s with
    scope := s.scope.bind e.1 (s.redirection.resolve e.2)
    pinned := s.redirection.resolve e.2 :: s.pinned }

variable {s : Session} {e : String × String} {entries entries' : List (String × String)}

/-- The order of entries does not matter for their independence. -/
theorem Independent.perm (h : s.Independent entries) (hperm : entries.Perm entries') :
    s.Independent entries' where
  names := (hperm.map _).nodup_iff.1 h.names
  free := fun e he => h.free e (hperm.mem_iff.2 he)
  ids := (hperm.map _).nodup_iff.1 h.ids
  new := fun e he => h.new e (hperm.mem_iff.2 he)

/-- **An addition binds the name asked for**, and the rest stays independent. -/
theorem Independent.step (h : s.Independent (e :: entries)) :
    (s.step (.scope (.add e.1 e.2))).1 = s.bound e ∧
      (s.step (.scope (.add e.1 e.2))).2.1 = .scope (.added e.1) ∧
      (s.bound e).Independent entries := by
  have hname : e.1 ∉ s.scope.names := Scope.idOf?_eq_none_iff.1 (h.free e List.mem_cons_self)
  have hid : s.redirection.resolve e.2 ∉ s.scope.ids :=
    Scope.nameOf?_eq_none_iff.1 (h.new e List.mem_cons_self)
  have hadd : s.scope.add e.1 (s.redirection.resolve e.2) =
      (s.scope.bind e.1 (s.redirection.resolve e.2), e.1) := by
    rw [Scope.add_of_unbound (h.new e List.mem_cons_self), Scope.freeName_of_not_mem hname]
  have hnames := List.nodup_cons.1 h.names
  have hids := List.nodup_cons.1 h.ids
  refine ⟨?_, ?_, hnames.2, fun e' he' => ?_, hids.2, fun e' he' => ?_⟩
  · show (s.perform (.add e.1 e.2)).1 = s.bound e
    rw [perform_eq]
    simp only [Scope.Command.mapId, Scope.perform, hadd]
    rfl
  · show Reply.scope (s.perform (.add e.1 e.2)).2.1 = .scope (.added e.1)
    rw [answer_perform]
    simp only [Scope.Command.mapId, Scope.perform, hadd]
  · -- the name that is bound now is none of those asked for later
    have hne : e'.1 ≠ e.1 := fun heq =>
      hnames.1 (List.mem_map.2 ⟨e', he', heq⟩)
    show (s.scope.bind _ _).idOf? e'.1 = none
    rw [Scope.idOf?_bind_of_not_mem hname, if_neg hne]
    exact h.free e' (List.mem_cons_of_mem e he')
  · have hne : s.redirection.resolve e'.2 ≠ s.redirection.resolve e.2 := fun heq =>
      hids.1 (List.mem_map.2 ⟨e', he', heq⟩)
    show (s.scope.bind _ _).nameOf? (s.redirection.resolve e'.2) = none
    rw [Scope.nameOf?_bind_of_not_mem hid, if_neg hne]
    exact h.new e' (List.mem_cons_of_mem e he')

/-- Additions in turn bind every name asked for, behind all bindings, and pin the ids. -/
theorem Independent.after_eq (h : s.Independent entries) :
    s.after (additions entries) =
      { s with
        scope := { s.scope with
          bindings := s.scope.bindings ++ entries.map fun e => ⟨e.1, s.redirection.resolve e.2⟩ }
        pinned := (entries.map fun e => s.redirection.resolve e.2).reverse ++ s.pinned } := by
  induction entries generalizing s with
  | nil => simp [additions, after, run]
  | cons e entries ih =>
    obtain ⟨hstep, -, hrest⟩ := h.step
    rw [additions, List.map_cons, after_cons, hstep, ← additions, ih hrest]
    simp [bound, Scope.bind]

/-- Every addition is answered with the name asked for. -/
theorem Independent.history_eq (h : s.Independent entries) :
    s.history (additions entries) =
      entries.map fun e => (.scope (.add e.1 e.2), .scope (.added e.1)) := by
  induction entries generalizing s with
  | nil => rfl
  | cons e entries ih =>
    obtain ⟨hstep, hreply, hrest⟩ := h.step
    rw [additions, List.map_cons, history_cons, hstep, hreply, ← additions, ih hrest]
    rfl

/-- The ids that are added own the names asked for, and all others those that they owned before. -/
theorem Independent.nameOf?_after (h : s.Independent entries) :
    (∀ e ∈ entries, (s.after (additions entries)).scope.nameOf? (s.redirection.resolve e.2) =
        some e.1) ∧
      ∀ id, (∀ e ∈ entries, s.redirection.resolve e.2 ≠ id) →
        (s.after (additions entries)).scope.nameOf? id = s.scope.nameOf? id := by
  induction entries generalizing s with
  | nil => exact ⟨nofun, fun _ _ => rfl⟩
  | cons e entries ih =>
    obtain ⟨hstep, -, hrest⟩ := h.step
    obtain ⟨hadded, hothers⟩ := ih hrest
    have hafter : s.after (additions (e :: entries)) = (s.bound e).after (additions entries) := by
      rw [additions, List.map_cons, after_cons, hstep, additions]
    have hid : s.redirection.resolve e.2 ∉ s.scope.ids :=
      Scope.nameOf?_eq_none_iff.1 (h.new e List.mem_cons_self)
    have hbound : ∀ id, (s.bound e).scope.nameOf? id =
        if id = s.redirection.resolve e.2 then some e.1 else s.scope.nameOf? id :=
      Scope.nameOf?_bind_of_not_mem hid e.1
    rw [hafter, List.forall_mem_cons]
    refine ⟨⟨?_, hadded⟩, fun id hne => ?_⟩
    · -- the rest is about other ids, so that the first one keeps its name
      rw [hothers _ fun e' he' heq => (List.nodup_cons.1 h.ids).1 (List.mem_map.2 ⟨e', he', heq⟩),
        hbound, if_pos rfl]
    · rw [List.forall_mem_cons] at hne
      rw [hothers id hne.2, hbound, if_neg (Ne.symm hne.1)]

/-- **What is added is imported behind all that was imported before.** -/
theorem Independent.imports_after (h : s.Independent entries) :
    (s.after (additions entries)).block.imports = s.block.imports ++
      entries.map fun e =>
        (s.redirection.resolve e.2, Path.shownAlias e.1 (s.redirection.resolve e.2)) := by
  have hnew : ∀ e ∈ entries, s.redirection.resolve e.2 ∉ s.scope.ids :=
    fun e he => Scope.nameOf?_eq_none_iff.1 (h.new e he)
  rw [h.after_eq, block, block, Block.imports_ofBindings_append, List.map_map,
    Block.ofBindings_congr]
  · rfl
  · -- an id that is bound already is pinned just if it was
    intro b hb
    have hnot : b.id ∉ entries.map fun e => s.redirection.resolve e.2 := by
      intro hmem
      obtain ⟨e, he, heq⟩ := List.mem_map.1 hmem
      exact hnew e he (List.mem_map.2 ⟨b, hb, heq.symm⟩)
    simp only [isHeldBack, List.mem_append, List.mem_reverse, hnot, false_or]
  · rw [List.map_map]
    exact h.ids
  · rw [List.forall_mem_map]
    exact hnew
  · rw [List.forall_mem_map]
    intro e he
    have hpinned : s.redirection.resolve e.2 ∈ entries.map fun e => s.redirection.resolve e.2 :=
      List.mem_map_of_mem he
    simp [isHeldBack, hpinned]

/-- **Independent additions commute.** Take any session in which a document is registered, and
entries whose names are free and differ, and whose ids, once they are redirected, own no name and
differ. In whichever order they are added, each is given the name that it asks for, and every other
id owns the same name as before. The block has the imports that it had, and behind them those that
were added; so it has the same imports for every order, each with the same alias, and the same
text. -/
theorem additions_commute (hdocument : s.hasDocument = true) (h : s.Independent entries)
    (hperm : entries.Perm entries') :
    (∀ order ∈ [entries, entries'],
      s.history (additions order) =
          order.map (fun e => (.scope (.add e.1 e.2), .scope (.added e.1))) ∧
        (∀ e ∈ order, (s.after (additions order)).scope.nameOf? (s.redirection.resolve e.2) =
          some e.1) ∧
        (∀ id, (∀ e ∈ order, s.redirection.resolve e.2 ≠ id) →
          (s.after (additions order)).scope.nameOf? id = s.scope.nameOf? id) ∧
        ∃ b, (s.after (additions order)).resolve.1 = .ok b ∧
          b.imports = s.block.imports ++ order.map fun e =>
            (s.redirection.resolve e.2, Path.shownAlias e.1 (s.redirection.resolve e.2))) ∧
      ∃ b b', (s.after (additions entries)).resolve.1 = .ok b ∧
        (s.after (additions entries')).resolve.1 = .ok b' ∧ b.imports.Perm b'.imports ∧
        b.render = b'.render := by
  have h' : s.Independent entries' := h.perm hperm
  have hresolve : ∀ {order}, s.Independent order →
      (s.after (additions order)).resolve.1 = .ok (s.after (additions order)).block := by
    intro order horder
    refine resolve_of_hasDocument ?_
    rw [horder.after_eq]
    exact hdocument
  refine ⟨?_, _, _, hresolve h, hresolve h', ?_⟩
  · intro order horder
    have hindependent : s.Independent order := by
      rcases List.mem_pair.1 horder with rfl | rfl
      · exact h
      · exact h'
    obtain ⟨hadded, hothers⟩ := hindependent.nameOf?_after
    exact ⟨hindependent.history_eq, hadded, hothers, _, hresolve hindependent,
      hindependent.imports_after⟩
  · have himports : (s.after (additions entries)).block.imports.Perm
        (s.after (additions entries')).block.imports := by
      rw [h.imports_after, h'.imports_after]
      exact (hperm.map _).append_left _
    exact ⟨himports, Block.render_eq_of_perm (Table.nodup_keys_ofList _) himports⟩

/-- Three packages of a template in two orders, one of them redirected, behind a document, a name
that was given away before and a library that is held back. -/
theorem additions_commute_of_fork :
    let r : Redirection := ⟨⟨[("x/a", "example.com/fork")]⟩⟩
    let features : Features := { Features.empty with genDeepEqual := true }
    let d : Document := { Document.empty "a.thrift" with structs := [⟨"Point", []⟩] }
    let s := (start ((Scope.empty .numbered).performAll [.add "fmt" "local"]).1 r).after
      [.document features d, .confirm "strings"]
    let entries := [("a", "x/a"), ("b", "x/b"), ("fork", "y/fork")]
    let entries' := [("fork", "y/fork"), ("a", "x/a"), ("b", "x/b")]
    s.hasDocument = true ∧ s.Independent entries ∧ entries.Perm entries' ∧
      s.history (additions entries') =
        entries'.map (fun e => (.scope (.add e.1 e.2), .scope (.added e.1))) ∧
      ∃ b b', (s.after (additions entries)).resolve.1 = .ok b ∧
        (s.after (additions entries')).resolve.1 = .ok b' ∧ b.imports.Perm b'.imports ∧
        b.render = b'.render := by
  intro r features d s entries entries'
  have hdocument : s.hasDocument = true := by decide
  have hindependent : s.Independent entries :=
    ⟨by decide, by decide, by decide, by decide⟩
  have hperm : entries.Perm entries' := by decide
  obtain ⟨hadded, hblocks⟩ := additions_commute hdocument hindependent hperm
  have horder : entries' ∈ [entries, entries'] := List.mem_cons_of_mem _ List.mem_cons_self
  exact ⟨hdocument, hindependent, hperm, (hadded entries' horder).1, hblocks⟩

end Session

end ImportPlan
