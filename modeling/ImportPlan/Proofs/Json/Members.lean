import ImportPlan.Proofs.Json.Values

namespace ImportPlan.Json

/-!
# Members of objects

The object form of a record is read member by member. The columns of a record do not interfere, so
the order of the members does not matter: it is their names that decide whether they are read, and
what is seen in a slot is what the member for it holds.

* `Column.Independent`, `Record.IsLawful` — the columns of a record do not interfere.
* `Record.Takes`, `Record.readMember_eq_ok_iff` — what becomes of one member.
* `Record.foldlM_readMember_perm` — members are read in whichever order they come.
* `Record.exists_foldlM_readMember_iff` — when members are read, if unknown ones are refused.
* `Record.Shows`, `Record.see_of_hasMember` — what is seen in the slots after that.
-/

variable {σ α β : Type}

/-! ### Columns that do not interfere -/

namespace Column

/-- One of the updates that the column reads. -/
def Gives (c : Column σ) (u : σ → σ) : Prop := ∃ source o, c.read source o = .ok u

/-- Neither column changes whether the other one is set, and it does not matter which one is read
first. -/
structure Independent (c c' : Column σ) : Prop where
  name_ne : c.name ≠ c'.name
  isSet_right : ∀ u, c.Gives u → ∀ s, c'.isSet (u s) = c'.isSet s
  isSet_left : ∀ u, c'.Gives u → ∀ s, c.isSet (u s) = c.isSet s
  comm : ∀ u u', c.Gives u → c'.Gives u' → ∀ s, u (u' s) = u' (u s)

theorem Independent.symm {c c' : Column σ} (h : c.Independent c') : c'.Independent c where
  name_ne := h.name_ne.symm
  isSet_right := h.isSet_left
  isSet_left := h.isSet_right
  comm u u' hu hu' s := (h.comm u' u hu' hu s).symm

instance : Std.Symm (@Independent σ) := ⟨fun _ _ => Independent.symm⟩

/-- What a column with a slot reads goes into the slot. -/
theorem gives_ofSlot_iff {name : String} {get : σ → Option β} {set : β → σ → σ} {d : Decoder β}
    {source : Source} {o : Outline} {u : σ → σ} :
    (ofSlot name get set d).read source o = .ok u ↔ ∃ b, d source o = .ok b ∧ u = set b := by
  show set <$> d source o = .ok u ↔ _
  cases d source o <;> simp [Functor.map, Except.map, eq_comm]

theorem exists_read_ofSlot_iff {name : String} {get : σ → Option β} {set : β → σ → σ}
    {d : Decoder β} {source : Source} {o : Outline} :
    (∃ u, (ofSlot name get set d).read source o = .ok u) ↔ ∃ b, d source o = .ok b := by
  simp only [gives_ofSlot_iff]
  exact ⟨fun ⟨_, b, hb, _⟩ => ⟨b, hb⟩, fun ⟨b, hb⟩ => ⟨set b, b, hb, rfl⟩⟩

/-- What a column with a slot reads does not change what filling the slot does not. -/
theorem ofSlot_keeps {γ : Type} {name : String} {get : σ → Option β} {set : β → σ → σ}
    {d : Decoder β} {see : σ → γ} (h : ∀ b s, see (set b s) = see s) :
    ∀ u, (Column.ofSlot name get set d).Gives u → ∀ s, see (u s) = see s := by
  rintro _ ⟨source, o, hread⟩ s
  obtain ⟨b, -, rfl⟩ := gives_ofSlot_iff.1 hread
  exact h b s

/-- What a column with a slot reads fills the slot. -/
theorem ofSlot_isSet {name : String} {get : σ → Option β} {set : β → σ → σ} {d : Decoder β}
    (h : ∀ b s, get (set b s) = some b) :
    ∀ u, (Column.ofSlot name get set d).Gives u →
      ∀ s, (Column.ofSlot name get set d).isSet (u s) = true := by
  rintro _ ⟨source, o, hread⟩ s
  obtain ⟨b, -, rfl⟩ := gives_ofSlot_iff.1 hread
  exact congrArg Option.isSome (h b s)

/-- Columns with slots of their own do not interfere. -/
theorem Independent.ofSlot {γ : Type} {name name' : String} {get : σ → Option β}
    {get' : σ → Option γ} {set : β → σ → σ} {set' : γ → σ → σ} {d : Decoder β} {d' : Decoder γ}
    (hname : name ≠ name') (hget' : ∀ b s, get' (set b s) = get' s)
    (hget : ∀ c s, get (set' c s) = get s) (hcomm : ∀ b c s, set b (set' c s) = set' c (set b s)) :
    (Column.ofSlot name get set d).Independent (.ofSlot name' get' set' d') where
  name_ne := hname
  isSet_right := ofSlot_keeps fun b s => congrArg Option.isSome (hget' b s)
  isSet_left := ofSlot_keeps fun c s => congrArg Option.isSome (hget c s)
  comm := by
    rintro _ _ ⟨source, o, hread⟩ ⟨source', o', hread'⟩ s
    obtain ⟨b, -, rfl⟩ := gives_ofSlot_iff.1 hread
    obtain ⟨c, -, rfl⟩ := gives_ofSlot_iff.1 hread'
    exact hcomm b c s

end Column

namespace Record

/-- What a column reads sets it, and the columns do not interfere. -/
structure IsLawful (r : Record σ α) : Prop where
  isSet : ∀ c ∈ r.columns, ∀ u, c.Gives u → ∀ s, c.isSet (u s) = true
  independent : r.columns.Pairwise Column.Independent

variable {r : Record σ α} {source : Source} {s s' s₁ s₂ : σ} {m m' : Key × Outline}
  {members members' : List (Key × Outline)} {c c' : Column σ} {name : String} {value : Outline}

theorem IsLawful.independent_of_ne (h : r.IsLawful) (hc : c ∈ r.columns) (hc' : c' ∈ r.columns)
    (hne : c.name ≠ c'.name) : c.Independent c' :=
  h.independent.forall hc hc' fun heq => hne (congrArg Column.name heq)

/-- Columns have names of their own. -/
theorem IsLawful.eq_of_name_eq (h : r.IsLawful) (hc : c ∈ r.columns) (hc' : c' ∈ r.columns)
    (heq : c.name = c'.name) : c = c' := by
  by_contra hne
  exact (h.independent.forall hc hc' hne).name_ne heq

theorem mem_of_find?_eq_some (h : r.columns.find? (·.name == name) = some c) :
    c ∈ r.columns ∧ c.name = name := by
  have hname := List.find?_some h
  exact ⟨List.mem_of_find?_eq_some h, beq_iff_eq.1 hname⟩

/-- A column is found by its name. -/
theorem IsLawful.find?_eq_some (h : r.IsLawful) (hc : c ∈ r.columns) :
    r.columns.find? (·.name == c.name) = some c := by
  cases hfind : r.columns.find? (·.name == c.name) with
  | none => exact absurd (beq_self_eq_true c.name) (List.find?_eq_none.1 hfind c hc)
  | some c' =>
    obtain ⟨hc', hname⟩ := mem_of_find?_eq_some hfind
    rw [h.eq_of_name_eq hc' hc hname]

/-- No column is found by a name that none has. -/
theorem find?_eq_none_iff :
    r.columns.find? (·.name == name) = none ↔ ∀ c ∈ r.columns, c.name ≠ name := by
  simp only [List.find?_eq_none, beq_iff_eq, ne_eq]

/-! ### One member -/

/-- What becomes of a member that is read: its column, which has not been set, reads its value, or
it has no column and is passed over. -/
inductive Takes (r : Record σ α) (source : Source) (s : σ) : Key × Outline → σ → Prop
  | column {key : Key} {value : Outline} {c : Column σ} {u : σ → σ} (hcolumn : c ∈ r.columns)
    (hkey : key.Names c.name) (hnew : c.isSet s = false) (hread : c.read source value = .ok u) :
    Takes r source s (key, value) (u s)
  | skipped {key : Key} {value : Outline} {name : String} (hkey : key.Names name)
    (hunknown : ∀ c ∈ r.columns, c.name ≠ name) (hskipped : r.unknown = .skipped)
    (hskip : value.skip = none) : Takes r source s (key, value) s

/-- A member for a column that has not been set is read by it. -/
theorem readMember_of_names (h : r.IsLawful) (hc : c ∈ r.columns) (hkey : m.1.Names c.name)
    (hnew : c.isSet s = false) :
    r.readMember source s m = (c.read source m.2 >>= fun u => .ok (u s)) := by
  rw [readMember, Key.names_iff.1 hkey]
  refine (pure_bind (m := Except Problem) c.name _).trans ?_
  rw [h.find?_eq_some hc]
  exact if_neg (Bool.eq_false_iff.1 hnew)

/-- A member for a column that has been set is there twice. -/
theorem readMember_of_isSet (h : r.IsLawful) (hc : c ∈ r.columns) (hkey : m.1.Names c.name)
    (hset : c.isSet s = true) :
    r.readMember source s m = .error (.mismatch (.duplicateField c.name)) := by
  rw [readMember, Key.names_iff.1 hkey]
  refine (pure_bind (m := Except Problem) c.name _).trans ?_
  rw [h.find?_eq_some hc]
  exact if_pos hset

/-- **A member is read just if it is taken.** -/
theorem readMember_eq_ok_iff (h : r.IsLawful) :
    r.readMember source s m = .ok s' ↔ r.Takes source s m s' := by
  obtain ⟨key, value⟩ := m
  constructor
  · intro hok
    rw [readMember, bind_eq_ok_iff] at hok
    obtain ⟨name, hkey, hok⟩ := hok
    rw [← Key.names_iff] at hkey
    split at hok
    · next c hfind =>
      obtain ⟨hc, rfl⟩ := mem_of_find?_eq_some hfind
      split at hok
      · cases hok
      · next hnew =>
        rw [bind_eq_ok_iff] at hok
        obtain ⟨u, hread, hok⟩ := hok
        cases hok
        exact .column hc hkey (Bool.eq_false_iff.2 hnew) hread
    · cases hok
    · next hfind hskipped =>
      rw [bind_eq_ok_iff] at hok
      obtain ⟨_, hskip, hok⟩ := hok
      cases hok
      exact .skipped hkey (find?_eq_none_iff.1 hfind) hskipped (checkFault_eq_ok_iff.1 hskip)
  · rintro (⟨hc, hkey, hnew, hread⟩ | ⟨hkey, hunknown, hskipped, hskip⟩)
    · rw [readMember_of_names h hc hkey hnew, hread]
      rfl
    · rw [Key.names_iff] at hkey
      simp only [readMember, hkey, bind, Except.bind, find?_eq_none_iff.2 hunknown, hskipped, hskip]
      rfl

/-! ### All members -/

/-- Two members that are taken in turn are taken the other way round, too, and lead to the same. -/
theorem Takes.comm (h : r.IsLawful) (hm : r.Takes source s m s₁) (hm' : r.Takes source s₁ m' s₂) :
    ∃ s₁', r.Takes source s m' s₁' ∧ r.Takes source s₁' m s₂ := by
  cases hm with
  -- a member that is passed over is so at any time
  | skipped hkey hunknown hskipped hskip =>
    exact ⟨s₂, hm', .skipped hkey hunknown hskipped hskip⟩
  | @column key value c u hc hkey hnew hread =>
    cases hm' with
    | skipped hkey' hunknown hskipped hskip =>
      exact ⟨s, .skipped hkey' hunknown hskipped hskip, .column hc hkey hnew hread⟩
    | @column key' value' c' u' hc' hkey' hnew' hread' =>
      have hset : c.isSet (u s) = true := h.isSet c hc u ⟨source, value, hread⟩ s
      -- a column is not taken twice
      have hname : c.name ≠ c'.name := by
        intro hname
        rw [h.eq_of_name_eq hc hc' hname, hnew'] at hset
        cases hset
      have hindependent := h.independent_of_ne hc hc' hname
      rw [hindependent.isSet_right u ⟨source, value, hread⟩] at hnew'
      have hkept : c.isSet (u' s) = false := by
        rw [hindependent.isSet_left u' ⟨source, value', hread'⟩, hnew]
      refine ⟨u' s, .column hc' hkey' hnew' hread', ?_⟩
      rw [← hindependent.comm u u' ⟨source, value, hread⟩ ⟨source, value', hread'⟩]
      exact .column hc hkey hkept hread

/-- **Members are read in whichever order they come.** -/
theorem foldlM_readMember_perm (h : r.IsLawful) (hperm : members.Perm members')
    (hread : members.foldlM (r.readMember source) s = .ok s') :
    members'.foldlM (r.readMember source) s = .ok s' := by
  refine foldlM_perm (fun hm hm' => ?_) hperm hread
  simp only [readMember_eq_ok_iff h] at hm hm' ⊢
  exact hm.comm h hm'

/-- The object form is read member by member, if the source lets a reader go into it. -/
theorem decoder_object_eq_ok_iff {depth : Nat} {a : α} :
    r.decoder (.text (depth + 1)) (.object members none) = .ok a ↔
      ∃ s, members.foldlM (r.readMember (.text depth)) r.start = .ok s ∧ r.finish s = .ok a :=
  bind_eq_ok_iff

/-- The first member is taken, and the others after it. -/
theorem foldlM_cons_eq_ok_iff (h : r.IsLawful) :
    (m :: members).foldlM (r.readMember source) s = .ok s' ↔
      ∃ s₁, r.Takes source s m s₁ ∧ members.foldlM (r.readMember source) s₁ = .ok s' := by
  simp only [List.foldlM_cons, bind_eq_ok_iff, readMember_eq_ok_iff h]

/-- Any member can be taken first. -/
theorem exists_takes_of_mem (h : r.IsLawful) (hm : m ∈ members)
    (hread : members.foldlM (r.readMember source) s = .ok s') :
    ∃ s₁ rest, members.Perm (m :: rest) ∧ r.Takes source s m s₁ ∧
      rest.foldlM (r.readMember source) s₁ = .ok s' := by
  obtain ⟨before, after, rfl⟩ := List.append_of_mem hm
  have hperm : (before ++ m :: after).Perm (m :: (before ++ after)) := List.perm_middle
  obtain ⟨s₁, hs₁, hrest⟩ := (foldlM_cons_eq_ok_iff h).1 (foldlM_readMember_perm h hperm hread)
  exact ⟨s₁, _, hperm, hs₁, hrest⟩

/-- A member for a column is read by it, into slots where it has not been set. -/
theorem Takes.exists_read (h : r.IsLawful) (hm : r.Takes source s m s₁) (hc : c ∈ r.columns)
    (hkey : m.1.Names c.name) :
    c.isSet s = false ∧ ∃ u, c.read source m.2 = .ok u ∧ s₁ = u s := by
  cases hm with
  | skipped hkey' hunknown => exact absurd (hkey.unique hkey') (hunknown c hc)
  | column hc' hkey' hnew hread =>
    cases h.eq_of_name_eq hc hc' (hkey.unique hkey')
    exact ⟨hnew, _, hread, rfl⟩

/-- No member is read for a column that has been set. -/
theorem not_hasMember_of_isSet (h : r.IsLawful) (hc : c ∈ r.columns) (hset : c.isSet s = true)
    (hread : members.foldlM (r.readMember source) s = .ok s') :
    ¬ HasMember members c.name value := by
  rintro ⟨key, hmem, hkey⟩
  obtain ⟨s₁, rest, -, htakes, -⟩ := exists_takes_of_mem h hmem hread
  rw [(htakes.exists_read h hc hkey).1] at hset
  cases hset

/-! ### What is seen in the slots -/

/-- What is seen of the slots depends on what the column has read, and on nothing else. -/
structure Shows (r : Record σ α) (c : Column σ) (see : σ → β) : Prop where
  mem : c ∈ r.columns
  own : ∀ u, c.Gives u → ∀ s s', see (u s) = see (u s')
  other : ∀ c' ∈ r.columns, c'.name ≠ c.name → ∀ u, c'.Gives u → ∀ s, see (u s) = see s

variable {see : σ → β}

/-- Members for other columns do not change what is seen. -/
theorem see_of_not_hasMember (h : r.IsLawful) (hsee : r.Shows c see)
    (hread : members.foldlM (r.readMember source) s = .ok s')
    (hnone : ∀ value, ¬ HasMember members c.name value) : see s' = see s := by
  induction members generalizing s with
  | nil =>
    cases hread
    rfl
  | cons m members ih =>
    obtain ⟨s₁, htakes, hrest⟩ := (foldlM_cons_eq_ok_iff h).1 hread
    simp only [hasMember_cons, not_or, not_and] at hnone
    rw [ih hrest fun value => (hnone value).2]
    cases htakes with
    | skipped => rfl
    | column hc hkey _ hvalue =>
      refine hsee.other _ hc (fun hname => ?_) _ ⟨source, _, hvalue⟩ s
      exact (hnone _).1 (hname ▸ hkey) rfl

/-- **What is seen is what the column reads from its member**, wherever that comes. -/
theorem see_of_hasMember (h : r.IsLawful) (hsee : r.Shows c see)
    (hread : members.foldlM (r.readMember source) s = .ok s')
    (hmember : HasMember members c.name value) :
    ∃ u, c.read source value = .ok u ∧ see s' = see (u s) := by
  obtain ⟨key, hmem, hkey⟩ := hmember
  -- taken first, it shows its value, and no other member that is read changes that
  obtain ⟨s₁, rest, -, htakes, hrest⟩ := exists_takes_of_mem h hmem hread
  obtain ⟨-, u, hvalue, rfl⟩ := htakes.exists_read h hsee.mem hkey
  have hset : c.isSet (u s) = true := h.isSet c hsee.mem u ⟨source, value, hvalue⟩ s
  exact ⟨u, hvalue, see_of_not_hasMember h hsee hrest fun _ =>
    not_hasMember_of_isSet h hsee.mem hset hrest⟩

/-- **What is in a slot is what its member is read as.** -/
theorem get_eq_some_iff (h : r.IsLawful) {get : σ → Option β} {set : β → σ → σ} {d : Decoder β}
    (hcolumn : .ofSlot name get set d ∈ r.columns) (hset : ∀ b s, get (set b s) = some b)
    (hother : ∀ c ∈ r.columns, c.name ≠ name → ∀ u, c.Gives u → ∀ s, get (u s) = get s)
    (hread : members.foldlM (r.readMember source) s = .ok s') (hempty : get s = none) {b : β} :
    get s' = some b ↔ ∃ value, HasMember members name value ∧ d source value = .ok b := by
  have hsee : r.Shows (.ofSlot name get set d) get := by
    refine ⟨hcolumn, ?_, hother⟩
    rintro _ ⟨source, o, hread⟩ s s'
    obtain ⟨b, -, rfl⟩ := Column.gives_ofSlot_iff.1 hread
    rw [hset, hset]
  have hvalue : ∀ {value}, HasMember members name value →
      ∃ b, d source value = .ok b ∧ get s' = some b := by
    intro value hmember
    obtain ⟨u, hvalue, hget⟩ := see_of_hasMember h hsee hread hmember
    obtain ⟨b, hb, rfl⟩ := Column.gives_ofSlot_iff.1 hvalue
    exact ⟨b, hb, by rw [hget, hset]⟩
  constructor
  · intro hget
    by_cases hsome : ∃ value, HasMember members name value
    · obtain ⟨value, hmember⟩ := hsome
      obtain ⟨b', hb', hget'⟩ := hvalue hmember
      rw [hget, Option.some.injEq] at hget'
      exact ⟨value, hmember, hget' ▸ hb'⟩
    · rw [see_of_not_hasMember h hsee hread (not_exists.1 hsome), hempty] at hget
      cases hget
  · rintro ⟨value, hmember, hb⟩
    obtain ⟨b', hb', hget⟩ := hvalue hmember
    rw [hget, ← Except.ok.inj (hb'.symm.trans hb)]

/-! ### When members are read -/

/-- A column that is read first keeps any other one from being set. -/
theorem IsLawful.isSet_of_ne (h : r.IsLawful) (hc : c ∈ r.columns) (hc' : c' ∈ r.columns)
    (hne : c'.name ≠ c.name) {u : σ → σ} (hu : c.Gives u) : c'.isSet (u s) = c'.isSet s :=
  (h.independent_of_ne hc hc' hne.symm).isSet_right u hu s

/-- The names of members that are read: those of columns that have not been set, and none twice. -/
theorem exists_names_of_read (h : r.IsLawful) (hrejected : r.unknown = .rejected)
    (hread : members.foldlM (r.readMember source) s = .ok s') :
    ∃ names, List.Forall₂ (fun m name => m.1.Names name) members names ∧ names.Nodup ∧
      ∀ name ∈ names, ∃ c ∈ r.columns, c.name = name ∧ c.isSet s = false := by
  induction members generalizing s with
  | nil => exact ⟨[], .nil, .nil, nofun⟩
  | cons m members ih =>
    obtain ⟨s₁, htakes, hrest⟩ := (foldlM_cons_eq_ok_iff h).1 hread
    obtain ⟨names, hnames, hnodup, hcolumns⟩ := ih hrest
    cases htakes with
    | skipped _ _ hskipped =>
      rw [hrejected] at hskipped
      cases hskipped
    | @column key value c u hc hkey hnew hvalue =>
      have hgives : c.Gives u := ⟨source, value, hvalue⟩
      -- the column has been set now, so that its name does not come again
      have hfresh : c.name ∉ names := by
        intro hmem
        obtain ⟨c', hc', hname, hunset⟩ := hcolumns c.name hmem
        rw [h.eq_of_name_eq hc' hc hname, h.isSet c hc u hgives s] at hunset
        cases hunset
      refine ⟨c.name :: names, .cons hkey hnames, hnodup.cons hfresh, ?_⟩
      rw [List.forall_mem_cons]
      refine ⟨⟨c, hc, rfl, hnew⟩, fun name hmem => ?_⟩
      obtain ⟨c', hc', rfl, hunset⟩ := hcolumns name hmem
      rw [h.isSet_of_ne hc hc' (ne_of_mem_of_not_mem hmem hfresh) hgives] at hunset
      exact ⟨c', hc', rfl, hunset⟩

/-- Members with names of columns that have not been set are read, if their values are. -/
theorem exists_read_of_names (h : r.IsLawful) {names : List String}
    (hnames : List.Forall₂ (fun m name => m.1.Names name) members names) (hnodup : names.Nodup)
    (hcolumns : ∀ name ∈ names, ∃ c ∈ r.columns, c.name = name ∧ c.isSet s = false)
    (hvalues : ∀ c ∈ r.columns, ∀ value, HasMember members c.name value →
      ∃ u, c.read source value = .ok u) :
    ∃ s', members.foldlM (r.readMember source) s = .ok s' := by
  induction hnames generalizing s with
  | nil => exact ⟨s, rfl⟩
  | @cons m name members names hkey hrest ih =>
    rw [List.nodup_cons] at hnodup
    rw [List.forall_mem_cons] at hcolumns
    obtain ⟨⟨c, hc, rfl, hnew⟩, hcolumns⟩ := hcolumns
    obtain ⟨u, hvalue⟩ := hvalues c hc m.2 (hasMember_cons.2 (.inl ⟨hkey, rfl⟩))
    have hgives : c.Gives u := ⟨source, m.2, hvalue⟩
    -- the columns of the names that follow are others, and this one does not set them
    have hlater : ∀ name ∈ names, ∃ c ∈ r.columns, c.name = name ∧ c.isSet (u s) = false := by
      intro name hmem
      obtain ⟨c', hc', rfl, hunset⟩ := hcolumns name hmem
      refine ⟨c', hc', rfl, ?_⟩
      rw [h.isSet_of_ne hc hc' (ne_of_mem_of_not_mem hmem hnodup.1) hgives, hunset]
    obtain ⟨s', hs'⟩ := ih hnodup.2 hlater fun c' hc' value hmember =>
      hvalues c' hc' value (hasMember_cons.2 (.inr hmember))
    exact ⟨s', (foldlM_cons_eq_ok_iff h).2 ⟨u s, .column hc hkey hnew hvalue, hs'⟩⟩

/-- **Members are read just if their names are those of columns, none comes twice, and each value is
read by its column**, where unknown members are refused. -/
theorem exists_foldlM_readMember_iff (h : r.IsLawful) (hrejected : r.unknown = .rejected)
    (hstart : ∀ c ∈ r.columns, c.isSet r.start = false) :
    (∃ s', members.foldlM (r.readMember source) r.start = .ok s') ↔
      NamedAmong members (r.columns.map (·.name)) ∧
      ∀ c ∈ r.columns, ∀ value, HasMember members c.name value →
        ∃ u, c.read source value = .ok u := by
  constructor
  · rintro ⟨s', hread⟩
    obtain ⟨names, hnames, hnodup, hcolumns⟩ := exists_names_of_read h hrejected hread
    refine ⟨⟨names, hnames, hnodup, fun name hname => ?_⟩, fun c hc value hmember => ?_⟩
    · obtain ⟨c, hc, rfl, -⟩ := hcolumns name hname
      exact List.mem_map_of_mem hc
    · obtain ⟨key, hmem, hkey⟩ := hmember
      obtain ⟨s₁, rest, -, htakes, -⟩ := exists_takes_of_mem h hmem hread
      exact (htakes.exists_read h hc hkey).2.imp fun u hu => hu.1
  · rintro ⟨⟨names, hnames, hnodup, hallowed⟩, hvalues⟩
    refine exists_read_of_names h hnames hnodup (fun name hname => ?_) hvalues
    obtain ⟨c, hc, rfl⟩ := List.mem_map.1 (hallowed name hname)
    exact ⟨c, hc, rfl, hstart c hc⟩

end Record

end ImportPlan.Json
