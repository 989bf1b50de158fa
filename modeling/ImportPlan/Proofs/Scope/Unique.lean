import ImportPlan.Proofs.Scope.FreeName
import ImportPlan.Scope.Command

namespace ImportPlan.Scope

/-!
# Scopes without repetition

What a command can do to a scope, and the invariant that follows: no name and no id is bound twice.

* `perform_cases` — a command leaves the scope alone or binds an id without a name to the free name
  of a name asked for; `forall_names_performAll` follows this along a history.
* `perform_demand` — to demand is to reserve, with another answer; `reserve_of_refused` — either
  leaves the scope alone if it is refused.
* `bindings_isPrefix_performAll` — bindings that are there stay in their places.
* `mem_ids_perform`, `mem_ids_addAll` — which ids own a name afterwards.
* `Unique` — names and ids are bound once; `Unique.performAll` keeps it along every history.
* `Unique.nameOf?_eq_some_iff`, `Unique.idOf?_eq_some_iff` — look-ups then agree with the list of
  bindings.
-/

/-! ### What a command binds -/

/-- The name and the id that a command asks to bind. -/
def Command.request? : Command → Option (String × String)
  | .add name id | .reserve name id | .demand name id => some (name, id)
  | .get _ | .list _ => none

/-- Adding leaves the scope alone if the id owns a name, and binds it otherwise. -/
theorem add_cases (s : Scope) (name id : String) :
    (id ∈ s.ids ∧ (s.add name id).1 = s) ∨
      (id ∉ s.ids ∧ s.add name id = (s.bind (s.freeName name) id, s.freeName name)) := by
  cases h : s.nameOf? id with
  | none => exact .inr ⟨nameOf?_eq_none_iff.1 h, add_of_unbound h⟩
  | some owned =>
    have hmem : id ∈ s.ids := by
      by_contra hnot
      rw [nameOf?_eq_none_iff.2 hnot] at h
      exact absurd h (by simp)
    exact .inl ⟨hmem, by rw [add_of_nameOf? h]⟩

/-- Reserving binds a free name to an id without one. In every other case the scope stays as it
is, and the answer says whether the two are bound to each other. -/
theorem reserve_cases (s : Scope) (name id : String) :
    (name ∉ s.names ∧ id ∉ s.ids ∧ s.reserve name id = (s.bind name id, true)) ∨
      (¬ (name ∉ s.names ∧ id ∉ s.ids) ∧
        s.reserve name id = (s, s.idOf? name == some id && s.nameOf? id == some name)) := by
  by_cases h : name ∉ s.names ∧ id ∉ s.ids
  · have hname : s.idOf? name = none := idOf?_eq_none_iff.2 h.1
    have hid : s.nameOf? id = none := nameOf?_eq_none_iff.2 h.2
    exact .inl ⟨h.1, h.2, by rw [reserve, hname, hid]⟩
  · refine .inr ⟨h, ?_⟩
    rw [reserve]
    -- the arm that binds is for two free sides only
    split
    · rename_i hname hid
      exact absurd ⟨idOf?_eq_none_iff.1 hname, nameOf?_eq_none_iff.1 hid⟩ h
    · rfl

/-- A reservation that is refused binds nothing. -/
theorem reserve_of_refused {s : Scope} {name id : String} (h : (s.reserve name id).2 = false) :
    (s.reserve name id).1 = s := by
  rcases reserve_cases s name id with ⟨_, _, heq⟩ | ⟨_, heq⟩
  · -- two free sides are bound, and that is granted
    rw [heq] at h
    cases h
  · rw [heq]

/-- Demanding is reserving, with a refusal as an error. -/
theorem demand_eq (s : Scope) (name id : String) :
    s.demand name id =
      if (s.reserve name id).2 then .ok (s.reserve name id).1 else .error ⟨name, id⟩ := by
  rw [demand]
  rcases s.reserve name id with ⟨s', granted⟩
  cases granted <;> rfl

/-- A command that demands does what one that reserves does, with another answer. -/
theorem perform_demand (s : Scope) (name id : String) :
    s.perform (.demand name id) =
      ((s.reserve name id).1, if (s.reserve name id).2 then .done else .refused ⟨name, id⟩) := by
  rw [perform, demand_eq]
  cases (s.reserve name id).2 <;> rfl

/-- **What a command can do to a scope**: nothing, or bind an id that owns no name yet to the free
name of the name asked for. -/
theorem perform_cases (s : Scope) (c : Command) :
    (s.perform c).1 = s ∨ ∃ name id, c.request? = some (name, id) ∧ id ∉ s.ids ∧
      (s.perform c).1 = s.bind (s.freeName name) id := by
  cases c with
  | add name id =>
    rcases add_cases s name id with ⟨_, heq⟩ | ⟨hid, heq⟩
    · exact .inl heq
    · exact .inr ⟨name, id, rfl, hid, by rw [perform, heq]⟩
  | get id => exact .inl rfl
  | reserve name id =>
    rcases reserve_cases s name id with ⟨hname, hid, heq⟩ | ⟨_, heq⟩
    · exact .inr ⟨name, id, rfl, hid, by rw [perform, heq, freeName_of_not_mem hname]⟩
    · exact .inl (by rw [perform, heq])
  | demand name id =>
    rw [perform_demand]
    rcases reserve_cases s name id with ⟨hname, hid, heq⟩ | ⟨_, heq⟩
    · exact .inr ⟨name, id, rfl, hid, by rw [heq, freeName_of_not_mem hname]⟩
    · exact .inl (by rw [heq])
  | list limit => exact .inl rfl

/-- A command does not change the renaming. -/
@[simp] theorem rename_perform (s : Scope) (c : Command) : (s.perform c).1.rename = s.rename := by
  rcases perform_cases s c with heq | ⟨name, id, _, _, heq⟩
  · rw [heq]
  · rw [heq, rename_bind]

theorem performAll_cons (s : Scope) (c : Command) (cs : List Command) :
    (s.performAll (c :: cs)).1 = ((s.perform c).1.performAll cs).1 := rfl

theorem performAll_append (s : Scope) (cs cs' : List Command) :
    (s.performAll (cs ++ cs')).1 = ((s.performAll cs).1.performAll cs').1 := by
  induction cs generalizing s with
  | nil => rfl
  | cons c cs ih => exact ih (s.perform c).1

/-- A name that a command binds comes from the name asked for: what is kept by the renaming and
holds of that name holds of all names that are owned. -/
theorem forall_names_perform {P : String → Prop} {s : Scope}
    (hrename : ∀ name n, P name → P (s.rename name n)) (hs : ∀ name ∈ s.names, P name)
    {c : Command} (hc : ∀ name id, c.request? = some (name, id) → P name) :
    ∀ name ∈ (s.perform c).1.names, P name := by
  rcases perform_cases s c with heq | ⟨name, id, hrequest, -, heq⟩
  · rwa [heq]
  · intro owned howned
    rw [heq, names_bind, List.mem_append, List.mem_singleton] at howned
    rcases howned with hmem | rfl
    · exact hs owned hmem
    · rcases freeName_eq s name with hfree | ⟨n, -, hfree⟩
      · rw [hfree]
        exact hc name id hrequest
      · rw [hfree]
        exact hrename name n (hc name id hrequest)

/-- Along every history, the names that are owned come from the names asked for. -/
theorem forall_names_performAll {P : String → Prop} {s : Scope}
    (hrename : ∀ name n, P name → P (s.rename name n)) (hs : ∀ name ∈ s.names, P name)
    {cs : List Command} (hcs : ∀ c ∈ cs, ∀ name id, c.request? = some (name, id) → P name) :
    ∀ name ∈ (s.performAll cs).1.names, P name := by
  induction cs generalizing s with
  | nil => exact hs
  | cons c cs ih =>
    rw [performAll_cons]
    refine ih ?_ (forall_names_perform hrename hs (hcs c List.mem_cons_self)) ?_
    · -- the renaming stays the same, so it still keeps what holds of the names
      rwa [rename_perform]
    · exact fun c' hc' => hcs c' (List.mem_cons_of_mem c hc')

/-! ### Bindings stay -/

/-- A command leaves the bindings that are there in their places. -/
theorem bindings_isPrefix_perform (s : Scope) (c : Command) :
    s.bindings <+: (s.perform c).1.bindings := by
  rcases perform_cases s c with heq | ⟨name, id, -, -, heq⟩
  · rw [heq]
  · rw [heq, bindings_bind]
    exact List.prefix_append _ _

/-- Along every history the bindings that are there stay in their places. -/
theorem bindings_isPrefix_performAll (s : Scope) (cs : List Command) :
    s.bindings <+: (s.performAll cs).1.bindings := by
  induction cs generalizing s with
  | nil => exact List.prefix_rfl
  | cons c cs ih => exact (bindings_isPrefix_perform s c).trans (ih (s.perform c).1)

/-! ### Which ids own a name -/

/-- After adding, the id owns a name, and so do the ids that did before. -/
theorem mem_ids_add (s : Scope) (name id i : String) :
    i ∈ (s.add name id).1.ids ↔ i ∈ s.ids ∨ i = id := by
  rcases add_cases s name id with ⟨hid, heq⟩ | ⟨_, heq⟩
  · rw [heq]
    constructor
    · exact .inl
    · rintro (h | rfl)
      · exact h
      · exact hid
  · rw [heq, ids_bind, List.mem_append, List.mem_singleton]

/-- Adding in turn gives a name to the id of every entry. -/
theorem mem_ids_addAll (s : Scope) (entries : List (String × String)) (i : String) :
    i ∈ (s.addAll entries).ids ↔ i ∈ s.ids ∨ ∃ e ∈ entries, e.2 = i := by
  induction entries generalizing s with
  | nil => simp [addAll]
  | cons e rest ih =>
    have hstep : s.addAll (e :: rest) = (s.add e.1 e.2).1.addAll rest := rfl
    rw [hstep, ih, mem_ids_add, List.exists_mem_cons_iff]
    grind

/-- A reservation gives a name to its id exactly if it is granted. -/
theorem mem_ids_reserve (s : Scope) (name id i : String) :
    i ∈ (s.reserve name id).1.ids ↔ i ∈ s.ids ∨ ((s.reserve name id).2 = true ∧ i = id) := by
  rcases reserve_cases s name id with ⟨_, _, heq⟩ | ⟨_, heq⟩
  · rw [heq, ids_bind, List.mem_append, List.mem_singleton]
    simp
  · rw [heq]
    constructor
    · exact .inl
    · rintro (h | ⟨hgranted, rfl⟩)
      · exact h
      · -- it is granted without a new binding only to an id that owns the name
        by_contra hnot
        rw [nameOf?_eq_none_iff.2 hnot] at hgranted
        exact absurd hgranted (by simp)

/-- A command gives a name to the id it asks for exactly if it is granted. -/
theorem mem_ids_perform (s : Scope) (c : Command) (i : String) :
    i ∈ (s.perform c).1.ids ↔
      i ∈ s.ids ∨ ((s.perform c).2.granted = true ∧ c.target? = some i) := by
  cases c with
  | add name id =>
    simp only [perform, mem_ids_add, Answer.granted, Command.target?, Option.some.injEq, true_and]
    rw [eq_comm (a := i)]
  | get id => simp [perform, Command.target?]
  | reserve name id =>
    simp only [perform, mem_ids_reserve, Answer.granted, Command.target?, Option.some.injEq]
    rw [eq_comm (a := i)]
  | demand name id =>
    rw [perform_demand, mem_ids_reserve]
    cases (s.reserve name id).2 <;>
      simp [Answer.granted, Command.target?, eq_comm]
  | list limit => simp [perform, Command.target?]

/-! ### No name and no id is bound twice -/

/-- No name and no id is bound twice. -/
structure Unique (s : Scope) : Prop where
  names : s.names.Nodup
  ids : s.ids.Nodup

theorem Unique.empty (ρ : Renaming) : (Scope.empty ρ).Unique := ⟨List.nodup_nil, List.nodup_nil⟩

/-- If no key comes twice, a search by key finds the one element that has it. -/
theorem find?_key_eq_some_iff {α : Type} {key : α → String} {l : List α} (h : (l.map key).Nodup)
    {k : String} {a : α} : l.find? (key · == k) = some a ↔ a ∈ l ∧ key a = k := by
  constructor
  · intro hfind
    exact ⟨List.mem_of_find?_eq_some hfind, by simpa using List.find?_some hfind⟩
  · rintro ⟨hmem, rfl⟩
    -- some element has the key, and what the search finds has the same one
    have hsome : (l.find? (key · == key a)).isSome := List.find?_isSome.2 ⟨a, hmem, by simp⟩
    obtain ⟨b, hb⟩ := Option.isSome_iff_exists.1 hsome
    have hkey : key b = key a := by simpa using List.find?_some hb
    rw [hb, List.inj_on_of_nodup_map h (List.mem_of_find?_eq_some hb) hmem hkey]

/-- If no id is bound twice, an id owns the name of its binding. -/
theorem Unique.nameOf?_eq_some_iff {s : Scope} (h : s.Unique) {name id : String} :
    s.nameOf? id = some name ↔ ⟨name, id⟩ ∈ s.bindings := by
  simp only [nameOf?, Option.map_eq_some_iff, find?_key_eq_some_iff h.ids]
  constructor
  · rintro ⟨b, ⟨hb, rfl⟩, rfl⟩
    exact hb
  · intro hmem
    exact ⟨⟨name, id⟩, ⟨hmem, rfl⟩, rfl⟩

/-- If no name is bound twice, a name stands for the id of its binding. -/
theorem Unique.idOf?_eq_some_iff {s : Scope} (h : s.Unique) {name id : String} :
    s.idOf? name = some id ↔ ⟨name, id⟩ ∈ s.bindings := by
  simp only [idOf?, Option.map_eq_some_iff, find?_key_eq_some_iff h.names]
  constructor
  · rintro ⟨b, ⟨hb, rfl⟩, rfl⟩
    exact hb
  · intro hmem
    exact ⟨⟨name, id⟩, ⟨hmem, rfl⟩, rfl⟩

/-- Binding a free name to an id without one repeats nothing. -/
theorem Unique.bind {s : Scope} (h : s.Unique) {name id : String} (hname : name ∉ s.names)
    (hid : id ∉ s.ids) : (s.bind name id).Unique where
  names := by rw [names_bind, ← List.concat_eq_append]; exact h.names.concat hname
  ids := by rw [ids_bind, ← List.concat_eq_append]; exact h.ids.concat hid

/-- A command repeats nothing, since the free name is owned by no id. -/
theorem Unique.perform {s : Scope} (h : s.Unique) (hρ : s.rename.Distinct) (c : Command) :
    (s.perform c).1.Unique := by
  rcases perform_cases s c with heq | ⟨name, id, _, hid, heq⟩
  · rwa [heq]
  · -- the free name is new by the count of candidates, the id since it owns no name
    rw [heq]
    exact h.bind (freeName_not_mem_names (hρ name)) hid

/-- **Along every history** no name and no id is bound twice. -/
theorem Unique.performAll {s : Scope} (h : s.Unique) (hρ : s.rename.Distinct) (cs : List Command) :
    (s.performAll cs).1.Unique := by
  induction cs generalizing s with
  | nil => exact h
  | cons c cs ih =>
    rw [performAll_cons]
    refine ih (h.perform hρ c) ?_
    rwa [rename_perform]

end ImportPlan.Scope
