import ImportPlan.Proofs.Scope.Indexed
import ImportPlan.Proofs.Scope.Search

namespace ImportPlan.Scope

/-!
# Reservations

A reservation binds exactly what it is asked for, or it is refused and nothing happens. This holds
of every scope that can be reached, with any renaming: where the candidates for a name repeat, a
search may go on forever, and then the addition that it belongs to has no outcome.

* `Performs` — what a command leads to, with additions by the search as it goes; `performs_iff` says
  that nothing else happens where candidates are distinct.
* `Reaches` — scopes that further commands lead to.
* `Performs.cases` — a command leaves the scope alone or binds a free name to an id without one.
* `Reaches.unique`, `Reaches.bindings_isPrefix` — so nothing is bound twice, and bindings stay.
* `Unique.reserve_of_mem` — what is reserved beside a binding.
* `reserve_exact` — the exact effect of a reservation, and that it never contradicts an addition.
-/

/-- What a command leads to. An addition looks for a free name by the search as it goes, however
many candidates that takes; it has no outcome if the search does not stop. -/
inductive Performs (s : Scope) : Command → Scope → Answer → Prop
  | keep {name id owned : String} (howned : s.nameOf? id = some owned) :
    Performs s (.add name id) s (.added owned)
  | bind {name id found : String} {numbers : List Nat} (hnew : s.nameOf? id = none)
    (hsearch : s.Search name 1 name numbers found) :
    Performs s (.add name id) (s.bind found id) (.added found)
  | perform {c : Command} (hc : ∀ name id, c ≠ .add name id) :
    Performs s c (s.perform c).1 (s.perform c).2

/-- Commands lead from one scope to the other. -/
inductive Reaches (s : Scope) : Scope → Prop
  | refl : Reaches s s
  | step {t u : Scope} {c : Command} {answer : Answer} (h : Reaches s t)
    (hc : t.Performs c u answer) : Reaches s u

variable {s t : Scope}

/-! ### Distinct candidates -/

/-- Where the candidates are distinct, every command leads to what is computed. -/
theorem performs_perform (hρ : s.rename.Distinct) (c : Command) :
    s.Performs c (s.perform c).1 (s.perform c).2 := by
  cases c with
  | add name id =>
    cases hid : s.nameOf? id with
    | some owned =>
      rw [perform, add_of_nameOf? hid]
      exact .keep hid
    | none =>
      rw [perform, add_of_unbound hid]
      obtain ⟨k, hname, hall⟩ := freeName_eq_attempt (hρ name)
      have hfree := freeName_not_mem_names (hρ name)
      exact .bind hid (search_iff.2 ⟨k, rfl, hname, hall, hfree⟩)
  | get id | reserve name id | demand name id | list limit =>
    refine .perform fun _ _ h => ?_
    cases h

/-- Where the candidates are distinct, a command leads to what is computed and to nothing else. -/
theorem performs_iff (hρ : s.rename.Distinct) {c : Command} {answer : Answer} :
    s.Performs c t answer ↔ s.perform c = (t, answer) := by
  constructor
  · intro h
    cases h with
    | keep howned => rw [perform, add_of_nameOf? howned]
    | @bind name id found numbers hnew hsearch =>
      obtain ⟨k, -, rfl, hall, hfree⟩ := search_iff.1 hsearch
      obtain ⟨k', hname, hall'⟩ := freeName_eq_attempt (hρ name)
      have hfree' : s.attempt name k' ∉ s.names := hname ▸ freeName_not_mem_names (hρ name)
      rw [perform, add_of_unbound hnew, hname, attempt_unique hall hfree hall' hfree']
    | perform hc => rfl
  · intro h
    have hperform := performs_perform hρ c
    rwa [h] at hperform

/-- Where the candidates are distinct, every history leads somewhere. -/
theorem reaches_performAll (hρ : s.rename.Distinct) (cs : List Command) :
    s.Reaches (s.performAll cs).1 := by
  suffices ∀ t : Scope, s.Reaches t → t.rename.Distinct → s.Reaches (t.performAll cs).1 from
    this s .refl hρ
  induction cs with
  | nil => exact fun t ht _ => ht
  | cons c cs ih =>
    intro t ht hρt
    have hρt' : (t.perform c).1.rename.Distinct := by rwa [rename_perform]
    exact ih (t.perform c).1 (ht.step (performs_perform hρt c)) hρt'

/-! ### What every command keeps -/

/-- **What a command can lead to**: nothing changes, or a free name is bound to an id without a
name. -/
theorem Performs.cases {c : Command} {answer : Answer} (h : s.Performs c t answer) :
    t = s ∨ ∃ name id, name ∉ s.names ∧ id ∉ s.ids ∧ t = s.bind name id := by
  cases h with
  | keep howned => exact .inl rfl
  | @bind name id found numbers hnew hsearch =>
    obtain ⟨-, -, -, -, hfree⟩ := search_iff.1 hsearch
    exact .inr ⟨found, id, hfree, nameOf?_eq_none_iff.1 hnew, rfl⟩
  | perform hc =>
    cases c with
    | add name id => exact absurd rfl (hc name id)
    | get id => exact .inl rfl
    | reserve name id =>
      rcases reserve_cases s name id with ⟨hname, hid, heq⟩ | ⟨_, heq⟩
      · exact .inr ⟨name, id, hname, hid, by rw [Scope.perform, heq]⟩
      · exact .inl (by rw [Scope.perform, heq])
    | demand name id =>
      rw [perform_demand]
      rcases reserve_cases s name id with ⟨hname, hid, heq⟩ | ⟨_, heq⟩
      · exact .inr ⟨name, id, hname, hid, by rw [heq]⟩
      · exact .inl (by rw [heq])
    | list limit => exact .inl rfl

/-- Along all commands no name and no id is bound twice. -/
theorem Reaches.unique (h : s.Reaches t) (hs : s.Unique) : t.Unique := by
  induction h with
  | refl => exact hs
  | step _ hc ih =>
    rcases hc.cases with rfl | ⟨name, id, hname, hid, rfl⟩
    · exact ih
    · exact ih.bind hname hid

/-- Along all commands the bindings that are there stay in their places. -/
theorem Reaches.bindings_isPrefix (h : s.Reaches t) : s.bindings <+: t.bindings := by
  induction h with
  | refl => exact List.prefix_rfl
  | step _ hc ih =>
    rcases hc.cases with rfl | ⟨name, id, -, -, rfl⟩
    · exact ih
    · exact ih.trans (List.prefix_append _ _)

/-- The name that an addition gives is bound to its id. -/
theorem Performs.mem_bindings (hs : s.Unique) {name id found : String}
    (h : s.Performs (.add name id) t (.added found)) : ⟨found, id⟩ ∈ t.bindings := by
  cases h with
  | keep howned => exact hs.nameOf?_eq_some_iff.1 howned
  | bind hnew hsearch =>
    rw [bindings_bind]
    exact List.mem_append_right _ (List.mem_singleton_self _)
  | perform hc => exact absurd rfl (hc name id)

/-! ### Reservations -/

/-- Names and ids are bound to each other both ways. -/
theorem Unique.idOf?_eq_some_iff_nameOf? (hs : s.Unique) {name id : String} :
    s.idOf? name = some id ↔ s.nameOf? id = some name := by
  rw [hs.idOf?_eq_some_iff, hs.nameOf?_eq_some_iff]

/-- Beside a binding only the binding itself can be reserved, and that changes nothing. -/
theorem Unique.reserve_of_mem (hs : s.Unique) {name id : String} (h : ⟨name, id⟩ ∈ s.bindings) :
    s.reserve name id = (s, true) ∧ (∀ name' ≠ name, s.reserve name' id = (s, false)) ∧
      ∀ id' ≠ id, s.reserve name id' = (s, false) := by
  have hid : s.idOf? name = some id := hs.idOf?_eq_some_iff.2 h
  have hname : s.nameOf? id = some name := hs.nameOf?_eq_some_iff.2 h
  refine ⟨?_, fun name' hne => ?_, fun id' hne => ?_⟩
  · simp [reserve, hid, hname]
  · -- the id owns another name
    rw [reserve, hname]
    cases s.idOf? name' <;> simp [Ne.symm hne]
  · -- the name stands for another id
    rw [reserve, hid]
    simp [Ne.symm hne]

/-- A reservation is granted for two free sides, and for two that are bound to each other. -/
theorem Unique.reserve_eq_true_iff (hs : s.Unique) (name id : String) :
    (s.reserve name id).2 = true ↔
      (s.idOf? name = none ∧ s.nameOf? id = none) ∨ s.idOf? name = some id := by
  rcases reserve_cases s name id with ⟨hname, hid, heq⟩ | ⟨hbound, heq⟩
  · rw [heq]
    exact iff_of_true rfl (.inl ⟨idOf?_eq_none_iff.2 hname, nameOf?_eq_none_iff.2 hid⟩)
  · rw [← idOf?_eq_none_iff, ← nameOf?_eq_none_iff] at hbound
    simp [heq, hbound, ← hs.idOf?_eq_some_iff_nameOf?]

/-- A reservation binds two free sides and does nothing else. -/
theorem reserve_fst (s : Scope) (name id : String) :
    (s.reserve name id).1 =
      if s.idOf? name = none ∧ s.nameOf? id = none then s.bind name id else s := by
  rcases reserve_cases s name id with ⟨hname, hid, heq⟩ | ⟨hbound, heq⟩
  · rw [heq, if_pos ⟨idOf?_eq_none_iff.2 hname, nameOf?_eq_none_iff.2 hid⟩]
  · rw [← idOf?_eq_none_iff, ← nameOf?_eq_none_iff] at hbound
    rw [heq, if_neg hbound]

/-- After a reservation that is granted the two sides are bound to each other. -/
theorem Unique.bound_of_reserve (hs : s.Unique) {name id : String}
    (h : (s.reserve name id).2 = true) :
    (s.reserve name id).1.nameOf? id = some name ∧
      (s.reserve name id).1.idOf? name = some id := by
  rw [reserve_fst]
  rcases (hs.reserve_eq_true_iff name id).1 h with hfree | hbound
  · have hid := nameOf?_eq_none_iff.1 hfree.2
    have hname := idOf?_eq_none_iff.1 hfree.1
    rw [if_pos hfree, nameOf?_bind_of_not_mem hid, idOf?_bind_of_not_mem hname]
    exact ⟨if_pos rfl, if_pos rfl⟩
  · have hnot : ¬ (s.idOf? name = none ∧ s.nameOf? id = none) := by
      rw [hbound]
      exact fun h => nomatch h.1
    rw [if_neg hnot]
    exact ⟨hs.idOf?_eq_some_iff_nameOf?.1 hbound, hbound⟩

/-- **A reservation does exactly what it is asked for, and agrees with every addition.** In every
scope that can be reached, with any renaming, it is granted for a name and an id that are both free,
or bound to each other. Then they are bound to each other, by one more binding if they were free and
without any change otherwise; a refusal changes nothing, and is an error where the reservation was
demanded. The map form does the same, although it would bind a side that only one of the maps knows.
What an addition has bound can be reserved from then on, and no other id for its name and no other
name for its id. -/
theorem reserve_exact {ρ : Renaming} {s : Scope} (hs : (empty ρ).Reaches s) :
    (∀ name id,
      ((s.reserve name id).2 = true ↔
        (s.idOf? name = none ∧ s.nameOf? id = none) ∨ s.idOf? name = some id) ∧
      ((s.reserve name id).2 = true →
        (s.reserve name id).1.nameOf? id = some name ∧
          (s.reserve name id).1.idOf? name = some id) ∧
      ((s.reserve name id).2 = false → (s.reserve name id).1 = s) ∧
      (s.reserve name id).1 =
        (if s.idOf? name = none ∧ s.nameOf? id = none then s.bind name id else s) ∧
      s.demand name id =
        (if (s.reserve name id).2 then .ok (s.reserve name id).1 else .error ⟨name, id⟩) ∧
      ∀ m : Indexed, m.Holds s → (m.reserve name id).2 = (s.reserve name id).2 ∧
        (m.reserve name id).1.Holds (s.reserve name id).1) ∧
      ∀ name id s' found, s.Performs (.add name id) s' (.added found) → ∀ t, s'.Reaches t →
        t.reserve found id = (t, true) ∧
          (∀ found' ≠ found, t.reserve found' id = (t, false)) ∧
          ∀ id' ≠ id, t.reserve found id' = (t, false) := by
  have hunique : s.Unique := hs.unique (Unique.empty ρ)
  refine ⟨fun name id => ?_, fun name id s' found hadd t ht => ?_⟩
  · exact ⟨hunique.reserve_eq_true_iff name id, hunique.bound_of_reserve, reserve_of_refused,
      reserve_fst s name id, demand_eq s name id, fun m hm => hm.reserve hunique name id⟩
  · -- the binding that the addition has made or found is still there
    have hmem : ⟨found, id⟩ ∈ t.bindings :=
      ht.bindings_isPrefix.subset (hadd.mem_bindings hunique)
    exact (ht.unique ((hs.step hadd).unique (Unique.empty ρ))).reserve_of_mem hmem

/-- Reservations beside a name that has been reserved and one that has been renamed. -/
theorem reserve_exact_of_clash :
    let s := ((empty .numbered).performAll
      [.reserve "fmt1" "local-variable", .add "fmt" "fmt"]).1
    let s' := (s.perform (.add "fmt" "example.com/fmt")).1
    let t := (s'.performAll [.demand "log" "log", .demand "fmt" "log"]).1
    let m := ((Indexed.empty .numbered).performAll
      [.reserve "fmt1" "local-variable", .add "fmt" "fmt"]).1
    (empty .numbered).Reaches s ∧ m.Holds s ∧
      s.Performs (.add "fmt" "example.com/fmt") s' (.added "fmt2") ∧ s'.Reaches t ∧
      ((s.reserve "log" "log").2 = true ∧ (s.reserve "log" "log").1.nameOf? "log" = some "log" ∧
        (s.reserve "log" "log").1.idOf? "log" = some "log") ∧
      ((s.reserve "fmt1" "fmt").2 = false ∧ (s.reserve "fmt1" "fmt").1 = s ∧
        (m.reserve "fmt1" "fmt").2 = false) ∧
      t.reserve "fmt2" "example.com/fmt" = (t, true) ∧
      ("fmt3" ≠ "fmt2" ∧ t.reserve "fmt3" "example.com/fmt" = (t, false)) ∧
      ("log" ≠ "example.com/fmt" ∧ t.reserve "fmt2" "log" = (t, false)) := by
  intro s s' t m
  have hempty : (empty .numbered).rename.Distinct := Renaming.numbered_distinct
  have hs : (empty .numbered).Reaches s := reaches_performAll hempty _
  have hm : m.Holds s :=
    ((Indexed.holds_empty .numbered).performAll (Unique.empty .numbered) hempty _).2
  have hρ : s.rename.Distinct := Renaming.numbered_distinct
  have hadd : s.Performs (.add "fmt" "example.com/fmt") s' (.added "fmt2") :=
    (performs_iff hρ).2 (Prod.ext rfl (by decide))
  have ht : s'.Reaches t := reaches_performAll Renaming.numbered_distinct _
  have hgranted : (s.reserve "log" "log").2 = true := by decide
  have hrefused : (s.reserve "fmt1" "fmt").2 = false := by decide
  obtain ⟨hreserve, hcoherent⟩ := reserve_exact hs
  obtain ⟨-, -, hunchanged, -, -, hmaps⟩ := hreserve "fmt1" "fmt"
  obtain ⟨hsame, hother, hid⟩ := hcoherent _ _ _ _ hadd t ht
  exact ⟨hs, hm, hadd, ht, ⟨hgranted, (hreserve "log" "log").2.1 hgranted⟩,
    ⟨hrefused, hunchanged hrefused, (hmaps m hm).1.trans hrefused⟩, hsame,
    ⟨by decide, hother "fmt3" (by decide)⟩, ⟨by decide, hid "log" (by decide)⟩⟩

end ImportPlan.Scope
