import ImportPlan.Proofs.Json.Members

namespace ImportPlan.Json

/-!
# Changes that a decoder notices or not

A value is changed at one place. What a decoder has read from it before, it reads from it still, or
it meets a problem at that place. Either way it is enough to know what the decoder of that place
makes of the change.

* `Turns` — what a change makes of a result that was one: nothing, or a problem.
* `Turns.bind`, `Turns.mapM`, `Turns.foldlM` — steps of a computation before and after the change.
* `Decoder.TurnsAt` — what a change makes of all that a decoder reads.
* `Decoder.TurnsAt.list`, `Record.turnsAt_member`, `Record.turnsAt_field` — changes inside.
* `Record.turnsAt_of_perm`, `Record.turnsAt_of_unknown`, `Record.turnsAt_of_removed` — changes of
  the members of a record.
-/

variable {α β σ : Type} {outcome : Option Problem}

/-! ### Results -/

/-- Where there was a result, it is still the same, or there is this problem in its place. -/
def Turns (outcome : Option Problem) (x x' : Except Problem α) : Prop :=
  ∀ a, x = .ok a → x' = outcome.elim (.ok a) .error

namespace Turns

variable {x x' : Except Problem α}

/-- Further steps go on from the result, if there is one. -/
theorem bind (h : Turns outcome x x') (f : α → Except Problem β) :
    Turns outcome (x >>= f) (x' >>= f) := by
  intro b hb
  obtain ⟨a, ha, hf⟩ := bind_eq_ok_iff.1 hb
  rw [h a ha]
  cases outcome with
  | none => exact hf
  | some problem => rfl

/-- Steps before the change are made as before. -/
theorem after {f f' : α → Except Problem β} (h : ∀ a, x = .ok a → Turns outcome (f a) (f' a)) :
    Turns outcome (x >>= f) (x >>= f') := by
  intro b hb
  obtain ⟨a, ha, hf⟩ := bind_eq_ok_iff.1 hb
  rw [ha]
  exact h a ha b hf

theorem map (h : Turns outcome x x') (f : α → β) : Turns outcome (f <$> x) (f <$> x') :=
  h.bind fun a => .ok (f a)

/-- A source lets a reader go inside or not, whatever has changed there. -/
theorem enter {f f' : Source → Except Problem α}
    (h : ∀ source, Turns outcome (f source) (f' source))
    (source : Source) : Turns outcome (source.enter f) (source.enter f') := by
  cases source with
  | value => exact h .value
  | text depth =>
    cases depth with
    | zero => exact nofun
    | succ depth => exact h (.text depth)

/-- One item of a list is changed. -/
theorem mapM {f : β → Except Problem α} {item item' : β} (h : Turns outcome (f item) (f item'))
    (before after : List β) :
    Turns outcome ((before ++ item :: after).mapM f) ((before ++ item' :: after).mapM f) := by
  induction before with
  | nil =>
    rw [List.nil_append, List.nil_append, List.mapM_cons, List.mapM_cons]
    exact h.bind _
  | cons b before ih =>
    rw [List.cons_append, List.cons_append, List.mapM_cons, List.mapM_cons]
    exact .after fun _ _ => ih.bind _

/-- One step of a fold is changed. -/
theorem foldlM {f : σ → β → Except Problem σ} {m m' : β}
    (h : ∀ s, Turns outcome (f s m) (f s m')) (before after : List β) (s : σ) :
    Turns outcome ((before ++ m :: after).foldlM f s) ((before ++ m' :: after).foldlM f s) := by
  rw [List.foldlM_append, List.foldlM_append]
  refine .after fun s' _ => ?_
  rw [List.foldlM_cons, List.foldlM_cons]
  exact (h s').bind _

end Turns

/-! ### Lists and slots -/

/-- What was read from the one value is read from the other, or there is this problem. -/
def Decoder.TurnsAt (d : Decoder α) (outcome : Option Problem) (o o' : Outline) : Prop :=
  ∀ source, Turns outcome (d source o) (d source o')

variable {o o' : Outline} {d : Decoder α}

/-- An item of a list is changed. -/
theorem Decoder.TurnsAt.list (h : d.TurnsAt outcome o o') (before after : List Outline)
    (stop : Option Fault) :
    (Decoder.list d).TurnsAt outcome (.list (before ++ o :: after) stop)
      (.list (before ++ o' :: after) stop) :=
  fun source => Turns.enter (fun inner => ((h inner).mapM before after).bind _) source

/-- The value for a slot is changed. -/
theorem Decoder.TurnsAt.slot (h : d.TurnsAt outcome o o') {name : String} {get : σ → Option α}
    {set : α → σ → σ} : (Column.ofSlot name get set d).read.TurnsAt outcome o o' :=
  fun source => (h source).map set

/-! ### Records -/

namespace Record

variable {r : Record σ α} {c : Column σ} {key : Key}
  {members members' before after : List (Key × Outline)} {stop : Option Fault}

/-- The value of a member is changed. -/
theorem turnsAt_member (hc : c ∈ r.columns) (h : r.IsLawful) (hkey : key.Names c.name)
    (hread : c.read.TurnsAt outcome o o') :
    r.decoder.TurnsAt outcome (.object (before ++ (key, o) :: after) stop)
      (.object (before ++ (key, o') :: after) stop) := by
  refine Turns.enter fun source => Turns.bind (Turns.foldlM (fun s => ?_) before after _) _
  cases hset : c.isSet s with
  | true =>
    rw [readMember_of_isSet h hc hkey hset]
    exact nofun
  | false =>
    rw [readMember_of_names h hc hkey hset, readMember_of_names h hc hkey hset]
    exact (hread source).bind _

/-- One of the fields that are still to be read is changed. -/
theorem turns_readFields {values values' : List Outline} {columns : List (Column σ)}
    (hc : columns[values.length]? = some c) (hread : c.read.TurnsAt outcome o o') (source : Source)
    (index : Nat) (s : σ) :
    Turns outcome (r.readFields source stop index columns (values ++ o :: values') s)
      (r.readFields source stop index columns (values ++ o' :: values') s) := by
  induction values generalizing columns index s with
  | nil =>
    cases columns with
    | nil => cases hc
    | cons c' columns =>
      obtain rfl : c' = c := Option.some.inj hc
      exact (hread source).bind _
  | cons value values ih =>
    cases columns with
    | nil => cases hc
    | cons c' columns => exact .after fun u _ => ih hc (index + 1) (u s)

/-- A field of the list form is changed. -/
theorem turnsAt_field {values values' : List Outline} (hc : r.columns[values.length]? = some c)
    (hread : c.read.TurnsAt outcome o o') :
    r.decoder.TurnsAt outcome (.list (values ++ o :: values') stop)
      (.list (values ++ o' :: values') stop) :=
  Turns.enter fun source => (turns_readFields hc hread source 0 r.start).bind r.finish

/-- The members come in another order. -/
theorem turnsAt_of_perm (h : r.IsLawful) (hperm : members.Perm members') :
    r.decoder.TurnsAt none (.object members stop) (.object members' stop) := by
  refine Turns.enter fun source => Turns.bind (fun s hread => ?_) _
  exact foldlM_readMember_perm h hperm hread

/-- A member is added that no column is named for. -/
theorem turnsAt_of_unknown (h : r.IsLawful) (hskipped : r.unknown = .skipped) {name : String}
    (hkey : key.Names name) (hunknown : ∀ c ∈ r.columns, c.name ≠ name) (hskip : o.skip = none) :
    r.decoder.TurnsAt none (.object (before ++ after) stop)
      (.object (before ++ (key, o) :: after) stop) := by
  refine Turns.enter fun source => Turns.bind ?_ _
  rw [List.foldlM_append, List.foldlM_append]
  -- it is passed over where it comes, and the members after it are read from the same slots
  refine .after fun s _ s' hrest => ?_
  have htakes : r.Takes source s (key, o) s := .skipped hkey hunknown hskipped hskip
  exact (foldlM_cons_eq_ok_iff h).2 ⟨s, htakes, hrest⟩

/-- A member is removed. It depends on how the record is finished without it what becomes of it. -/
theorem turnsAt_of_removed (h : r.IsLawful) (hc : c ∈ r.columns) (hkey : key.Names c.name)
    (hfinish : ∀ source u s a, c.read source o = .ok u → c.isSet s = false →
      r.finish (u s) = .ok a → r.finish s = outcome.elim (.ok a) .error) :
    r.decoder.TurnsAt outcome (.object (before ++ (key, o) :: after) stop)
      (.object (before ++ after) stop) := by
  refine Turns.enter fun source a hread => ?_
  obtain ⟨s', hs', hread⟩ := bind_eq_ok_iff.1 hread
  obtain ⟨_, hstop, hread⟩ := bind_eq_ok_iff.1 hread
  -- the member could have come last
  have hperm : (before ++ (key, o) :: after).Perm (before ++ after ++ [(key, o)]) :=
    List.perm_middle.trans (List.perm_append_singleton _ _).symm
  have hlast := foldlM_readMember_perm h hperm hs'
  rw [List.foldlM_append, bind_eq_ok_iff] at hlast
  obtain ⟨s, hs, hlast⟩ := hlast
  obtain ⟨s₁, htakes, hlast⟩ := (foldlM_cons_eq_ok_iff h).1 hlast
  obtain ⟨hnew, u, hvalue, rfl⟩ := htakes.exists_read h hc hkey
  cases hlast
  rw [readObject, hs]
  show (checkFault stop >>= fun _ => r.finish s) = _
  rw [hstop]
  exact hfinish source u s a hvalue hnew hread

end Record

end ImportPlan.Json
