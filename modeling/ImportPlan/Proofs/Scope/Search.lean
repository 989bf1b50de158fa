import ImportPlan.Proofs.Scope.Unique

namespace ImportPlan

/-!
# The search for a free name

A scope looks for a free name in a list of candidates that it has counted in advance. The search
itself needs no count: it checks one candidate after the other and stops at the first free one. This
file shows that it stops, and where.

* `Renaming.AltersAt` — no renamed candidate for a name is the name itself; it holds of `numbered`
  and of `underscored`.
* `Scope.Search` — the search, candidate by candidate, with the numbers it asks the renaming for.
* `Scope.attempt` — the names that are tried: the name asked for, then its candidates.
* `Scope.search_iff` — a search that stops has asked for all candidates up to the first free one.
* `Scope.le_size_of_attempts` — how many owned names can be tried, by counting the bindings.
* `Scope.freeName_eq_attempt` — the free name is the first free one of the names that are tried.
* `Scope.add_takes_first_free` — so adding ends, and binds the id to that name.
* `Renaming.repeating`, `Scope.search_may_check_name_twice` — a renaming that does not alter names
  can make a search check one name more.
-/

/-! ### Renamings that leave no name as it is -/

namespace Renaming

/-- No renamed candidate for this name is the name itself. -/
def AltersAt (ρ : Renaming) (name : String) : Prop := ∀ n, 2 ≤ n → ρ name n ≠ name

/-- A text behind which something is put is another text. -/
theorem append_ne_self {name suffix : String} (h : suffix ≠ "") : name ++ suffix ≠ name := by
  intro heq
  rw [← String.append_empty (s := name)] at heq
  exact h ((String.append_right_inj name).1 (by simpa using heq))

theorem toString_ne_empty (n : Nat) : toString n ≠ "" := by
  intro hempty
  have hdigits := congrArg String.toList hempty
  rw [Nat.toString_eq_ofList_toDigits, String.toList_ofList] at hdigits
  exact Nat.toDigits_ne_nil hdigits

theorem numbered_altersAt (name : String) : numbered.AltersAt name :=
  fun n _ => append_ne_self (toString_ne_empty (n - 1))

theorem underscored_altersAt (name : String) : underscored.AltersAt name := by
  intro n _ heq
  rw [underscored, String.append_assoc] at heq
  exact append_ne_self (fun hempty => by simp at hempty) heq

/-- What is written is the number of the candidate less one, unless there is nothing to take it
from. -/
theorem numbered_eq {name : String} {n : Nat} (h : 1 ≤ n) :
    numbered name n = name ++ toString ((n : Int) - 1) := by
  have hpred : (n : Int) - 1 = ((n - 1 : Nat) : Int) := by omega
  rw [hpred]
  rfl

end Renaming

namespace Scope

/-- The search from the candidate with this number on: one that is owned gives way to the next, and
the first free one ends the search. The numbers are those that the renaming is asked for. -/
inductive Search (s : Scope) (name : String) : Nat → String → List Nat → String → Prop
  | stop {number : Nat} {candidate : String} (hfree : s.isFree candidate = true) :
    Search s name number candidate [] candidate
  | next {number : Nat} {candidate : String} {numbers : List Nat} {found : String}
    (howned : s.isFree candidate = false)
    (hrest : Search s name (number + 1) (s.rename name (number + 1)) numbers found) :
    Search s name number candidate ((number + 1) :: numbers) found

/-- The names that are tried: the name asked for, then its candidates from the second one on. -/
def attempt (s : Scope) (name : String) : Nat → String
  | 0 => name
  | k + 1 => s.rename name (k + 2)

variable {s : Scope} {name : String}

/-! ### Searches that stop -/

/-- A search that stops goes from the name that is tried at one place to the first free one behind
it. -/
theorem Search.exists_attempt {number : Nat} {candidate found : String} {numbers : List Nat}
    (h : s.Search name number candidate numbers found) {j : Nat} (hnumber : number = j + 1)
    (hcandidate : candidate = s.attempt name j) :
    ∃ k, j ≤ k ∧ numbers = List.range' (j + 2) (k - j) ∧ found = s.attempt name k ∧
      (∀ i, j ≤ i → i < k → s.attempt name i ∈ s.names) ∧ found ∉ s.names := by
  induction h generalizing j with
  | stop hfree =>
    refine ⟨j, Nat.le_refl j, ?_, hcandidate, fun i hji hij => by omega, isFree_iff.1 hfree⟩
    rw [Nat.sub_self, List.range'_zero]
  | @next number candidate numbers found howned _ ih =>
    subst hnumber
    obtain ⟨k, hjk, hnumbers, hfound, hall, hfree⟩ := ih (j := j + 1) rfl rfl
    refine ⟨k, by omega, ?_, hfound, fun i hji hik => ?_, hfree⟩
    · have hsub : k - j = (k - (j + 1)) + 1 := by omega
      rw [hnumbers, hsub, List.range'_succ]
    · rcases Nat.eq_or_lt_of_le hji with rfl | hlt
      · -- the candidate at this place has been found to be owned
        rw [← hcandidate]
        by_contra hnot
        rw [isFree_iff.2 hnot] at howned
        cases howned
      · exact hall i hlt hik

/-- Behind names that are owned the search goes on up to a free one. -/
theorem search_of_attempts {k d : Nat} (hfree : s.attempt name (k + d) ∉ s.names)
    (hall : ∀ i, k ≤ i → i < k + d → s.attempt name i ∈ s.names) :
    s.Search name (k + 1) (s.attempt name k) (List.range' (k + 2) d) (s.attempt name (k + d)) := by
  induction d generalizing k with
  | zero => exact .stop (isFree_iff.2 hfree)
  | succ d ih =>
    have hplace : k + (d + 1) = k + 1 + d := by omega
    rw [hplace] at hfree hall ⊢
    have howned : s.isFree (s.attempt name k) = false := by
      have hnot : ¬ s.isFree (s.attempt name k) = true := fun h =>
        isFree_iff.1 h (hall k (Nat.le_refl k) (by omega))
      simpa using hnot
    rw [List.range'_succ]
    exact .next howned (ih hfree fun i hki hid => hall i (by omega) hid)

/-- **A search stops exactly at the first free name**, and then it has asked for all candidates up
to that one. -/
theorem search_iff {numbers : List Nat} {found : String} :
    s.Search name 1 name numbers found ↔
      ∃ k, numbers = List.range' 2 k ∧ found = s.attempt name k ∧
        (∀ i < k, s.attempt name i ∈ s.names) ∧ found ∉ s.names := by
  constructor
  · intro h
    obtain ⟨k, -, hnumbers, hfound, hall, hfree⟩ := h.exists_attempt (j := 0) rfl rfl
    exact ⟨k, hnumbers, hfound, fun i hi => hall i (Nat.zero_le i) hi, hfree⟩
  · rintro ⟨k, rfl, rfl, hall, hfree⟩
    have hfree' : s.attempt name (0 + k) ∉ s.names := by rwa [Nat.zero_add]
    have hsearch := search_of_attempts hfree' fun i _ hi => hall i (by omega)
    rw [Nat.zero_add k] at hsearch
    exact hsearch

/-! ### How long a search takes -/

/-- There are no more distinct names that are owned than bindings. -/
theorem length_le_size {tried : List String} (hdistinct : tried.Nodup)
    (howned : ∀ n ∈ tried, n ∈ s.names) : tried.length ≤ s.size := by
  have hlength := hdistinct.length_le_of_subset howned
  rwa [names, List.length_map] at hlength

/-- As long as owned names are tried there are no more of them than bindings, but for the name
asked for, which may come again among its candidates. -/
theorem le_size_of_attempts (hρ : s.rename.DistinctAt name) {k : Nat}
    (hall : ∀ i < k, s.attempt name i ∈ s.names) :
    k ≤ s.size + 1 ∧ (s.rename.AltersAt name → k ≤ s.size) := by
  have hcandidates : ((List.range' 1 (k - 1)).map (s.attempt name)).Nodup := by
    refine List.Nodup.map_on (fun m hm n hn h => ?_) List.nodup_range'
    obtain ⟨m, rfl⟩ := Nat.exists_eq_add_of_le' (List.mem_range'_1.1 hm).1
    obtain ⟨n, rfl⟩ := Nat.exists_eq_add_of_le' (List.mem_range'_1.1 hn).1
    have heq := hρ (m + 2) (n + 2) (by omega) (by omega) h
    omega
  have howned : ∀ n ∈ (List.range' 1 (k - 1)).map (s.attempt name), n ∈ s.names := by
    intro n hn
    obtain ⟨i, hi, rfl⟩ := List.mem_map.1 hn
    have hrange := List.mem_range'_1.1 hi
    exact hall i (by omega)
  refine ⟨?_, fun halters => ?_⟩
  · have hlength := length_le_size hcandidates howned
    rw [List.length_map, List.length_range'] at hlength
    omega
  · -- the name itself is one more
    rcases Nat.eq_zero_or_pos k with rfl | hpos
    · exact Nat.zero_le _
    have hnew : name ∉ (List.range' 1 (k - 1)).map (s.attempt name) := by
      intro hmem
      obtain ⟨i, hi, heq⟩ := List.mem_map.1 hmem
      obtain ⟨i, rfl⟩ := Nat.exists_eq_add_of_le' (List.mem_range'_1.1 hi).1
      exact halters (i + 2) (by omega) heq
    have hlength := length_le_size (List.nodup_cons.2 ⟨hnew, hcandidates⟩)
      (List.forall_mem_cons.2 ⟨hall 0 hpos, howned⟩)
    rw [List.length_cons, List.length_map, List.length_range'] at hlength
    omega

/-! ### The free name -/

/-- **The free name is the first free one of the names that are tried**, if the candidates differ
from each other. -/
theorem freeName_eq_attempt (hρ : s.rename.DistinctAt name) :
    ∃ k, s.freeName name = s.attempt name k ∧ ∀ i < k, s.attempt name i ∈ s.names := by
  by_cases hname : name ∈ s.names
  · obtain ⟨c, hc, hfree⟩ := exists_free_candidate hρ
    have hsome : ((s.candidates name).find? s.isFree).isSome :=
      List.find?_isSome.2 ⟨c, hc, isFree_iff.2 hfree⟩
    obtain ⟨found, hfound⟩ := Option.isSome_iff_exists.1 hsome
    obtain ⟨-, k, hk, hget, hbefore⟩ := List.find?_eq_some_iff_getElem.1 hfound
    have hnot : ¬ s.isFree name = true := fun h => isFree_iff.1 h hname
    refine ⟨k + 1, ?_, fun i hi => ?_⟩
    · rw [freeName, if_neg hnot, hfound, Option.getD_some, ← hget]
      simp [candidates, attempt]
    · cases i with
      | zero => exact hname
      | succ i =>
        -- the search has passed over this candidate
        have hi' : i < k := Nat.lt_of_succ_lt_succ hi
        have hpassed := hbefore i hi'
        have hcandidate : (s.candidates name)[i] = s.attempt name (i + 1) := by
          simp [candidates, attempt]
        by_contra hnew
        rw [hcandidate, isFree_iff.2 hnew] at hpassed
        cases hpassed
  · exact ⟨0, freeName_of_not_mem hname, fun i hi => absurd hi (Nat.not_lt_zero i)⟩

/-- Only one of the names that are tried is the first free one. -/
theorem attempt_unique {k k' : Nat} (hall : ∀ i < k, s.attempt name i ∈ s.names)
    (hfree : s.attempt name k ∉ s.names) (hall' : ∀ i < k', s.attempt name i ∈ s.names)
    (hfree' : s.attempt name k' ∉ s.names) : k = k' := by
  rcases Nat.lt_trichotomy k k' with hlt | heq | hlt
  · exact absurd (hall' k hlt) hfree
  · exact heq
  · exact absurd (hall k' hlt) hfree'

/-! ### Adding -/

/-- **Adding ends with the first free name.** An id that owns a name keeps it. For any other one the
search stops, and in one way only: it checks the name asked for and the candidates from the second
one on, up to the first of these names that is free. It checks at most two names more than there are
bindings, and at most one more if no candidate is the name asked for, as with the two renamings of
this library. The name found is bound to the id behind all other bindings, and no other look-up
changes. No candidate with a number below two is ever asked for, so that `numbered` has a number
before each. -/
theorem add_takes_first_free (hρ : s.rename.DistinctAt name) (id : String) :
    (∀ owned, s.nameOf? id = some owned → s.add name id = (s, owned)) ∧
      (s.nameOf? id = none → ∃ k,
        (∀ numbers found, s.Search name 1 name numbers found ↔
          numbers = List.range' 2 k ∧ found = s.attempt name k) ∧
        (k + 1 ≤ s.size + 2 ∧ (s.rename.AltersAt name → k + 1 ≤ s.size + 1)) ∧
        ((∀ i < k, s.attempt name i ∈ s.names) ∧ s.attempt name k ∉ s.names) ∧
        (s.add name id).2 = s.attempt name k ∧
        (s.add name id).1.bindings = s.bindings ++ [⟨s.attempt name k, id⟩] ∧
        (∀ i, (s.add name id).1.nameOf? i =
          if i = id then some (s.attempt name k) else s.nameOf? i) ∧
        ∀ n, (s.add name id).1.idOf? n =
          if n = s.attempt name k then some id else s.idOf? n) ∧
      (∀ ρ ∈ [Renaming.numbered, Renaming.underscored], ρ.DistinctAt name ∧ ρ.AltersAt name) ∧
      ∀ numbers found, s.Search name 1 name numbers found → ∀ n ∈ numbers,
        2 ≤ n ∧ Renaming.numbered name n = name ++ toString ((n : Int) - 1) := by
  refine ⟨fun owned h => add_of_nameOf? h, fun hid => ?_, ?_, ?_⟩
  · obtain ⟨k, hname, hall⟩ := freeName_eq_attempt hρ
    have hfree : s.attempt name k ∉ s.names := hname ▸ freeName_not_mem_names hρ
    have hadd : s.add name id = (s.bind (s.attempt name k) id, s.attempt name k) := by
      rw [add_of_unbound hid, hname]
    have hsize := le_size_of_attempts hρ hall
    have hchecks : k + 1 ≤ s.size + 2 := Nat.succ_le_succ hsize.1
    refine ⟨k, fun numbers found => ?_, ⟨hchecks, fun h => Nat.succ_le_succ (hsize.2 h)⟩,
      ⟨hall, hfree⟩, by rw [hadd], by rw [hadd, bindings_bind], fun i => ?_, fun n => ?_⟩
    · rw [search_iff]
      constructor
      · rintro ⟨k', rfl, rfl, hall', hfree'⟩
        rw [attempt_unique hall hfree hall' hfree']
        exact ⟨rfl, rfl⟩
      · rintro ⟨rfl, rfl⟩
        exact ⟨k, rfl, rfl, hall, hfree⟩
    · rw [hadd, nameOf?_bind_of_not_mem (nameOf?_eq_none_iff.1 hid)]
    · rw [hadd, idOf?_bind_of_not_mem hfree]
  · intro ρ hmem
    rcases List.mem_pair.1 hmem with rfl | rfl
    · exact ⟨Renaming.numbered_distinct name, Renaming.numbered_altersAt name⟩
    · exact ⟨Renaming.underscored_distinct name, Renaming.underscored_altersAt name⟩
  · intro numbers found hsearch n hn
    obtain ⟨k, rfl, -, -, -⟩ := search_iff.1 hsearch
    have hle : 2 ≤ n := (List.mem_range'_1.1 hn).1
    exact ⟨hle, Renaming.numbered_eq (by omega)⟩

/-- A search that passes over the name asked for and over a candidate that has been reserved. -/
theorem add_takes_first_free_of_reserved :
    let s := ((empty .numbered).performAll
      [.reserve "fmt1" "local-variable", .add "fmt" "fmt"]).1
    s.rename.DistinctAt "fmt" ∧ s.nameOf? "fmt" = some "fmt" ∧ s.add "fmt" "fmt" = (s, "fmt") ∧
      s.nameOf? "example.com/fmt" = none ∧
      (∃ k,
        (∀ numbers found, s.Search "fmt" 1 "fmt" numbers found ↔
          numbers = List.range' 2 k ∧ found = s.attempt "fmt" k) ∧
        (k + 1 ≤ s.size + 2 ∧ s.rename.AltersAt "fmt" ∧ k + 1 ≤ s.size + 1) ∧
        ((∀ i < k, s.attempt "fmt" i ∈ s.names) ∧ s.attempt "fmt" k ∉ s.names) ∧
        (s.add "fmt" "example.com/fmt").2 = s.attempt "fmt" k) ∧
      s.Search "fmt" 1 "fmt" [2, 3] "fmt2" ∧
      ∀ n ∈ [2, 3], 2 ≤ n ∧ Renaming.numbered "fmt" n = "fmt" ++ toString ((n : Int) - 1) := by
  intro s
  have hρ : s.rename.DistinctAt "fmt" := Renaming.numbered_distinct "fmt"
  have halters : s.rename.AltersAt "fmt" := Renaming.numbered_altersAt "fmt"
  have howned : s.nameOf? "fmt" = some "fmt" := by decide
  have hnew : s.nameOf? "example.com/fmt" = none := by decide
  have hsearch : s.Search "fmt" 1 "fmt" [2, 3] "fmt2" :=
    .next (by decide) (.next (by decide) (.stop (by decide)))
  obtain ⟨k, hk, hbound, hfirst, hadd, -⟩ :=
    (add_takes_first_free hρ "example.com/fmt").2.1 hnew
  exact ⟨hρ, howned, (add_takes_first_free hρ "fmt").1 "fmt" howned, hnew,
    ⟨k, hk, ⟨hbound.1, halters, hbound.2 halters⟩, hfirst, hadd⟩, hsearch,
    (add_takes_first_free hρ "fmt").2.2.2 [2, 3] "fmt2" hsearch⟩

end Scope

/-! ### A renaming that repeats the name -/

namespace Renaming

/-- The candidates `name`, `name3`, `name4`, and so on: the first of them is the name itself. -/
def repeating : Renaming := fun name n => if n = 2 then name else name ++ toString n

/-- A name that is repeated once is repeated by no other candidate. -/
theorem repeating_distinct : repeating.Distinct := by
  intro name m n _ _ h
  unfold repeating at h
  by_cases hm : m = 2
  · by_cases hn : n = 2
    · rw [hm, hn]
    · rw [if_pos hm, if_neg hn] at h
      exact absurd h.symm (append_ne_self (toString_ne_empty n))
  · by_cases hn : n = 2
    · rw [if_neg hm, if_pos hn] at h
      exact absurd h (append_ne_self (toString_ne_empty m))
    · rw [if_neg hm, if_neg hn] at h
      exact Nat.repr_injective ((String.append_right_inj name).1 h)

end Renaming

namespace Scope

/-- **A search may check the name asked for twice**, and then check two names more than there are
bindings: beside the one binding of `a`, candidates that repeat the name once have `a`, `a` and `a3`
checked. That they differ from each other is not enough for one name more. -/
theorem search_may_check_name_twice :
    ¬ ∀ (ρ : Renaming) (cs : List Command) (name id : String), ρ.Distinct →
      let s := ((empty ρ).performAll cs).1
      s.nameOf? id = none → ∃ numbers found,
        s.Search name 1 name numbers found ∧ numbers.length + 1 ≤ s.size + 1 := by
  intro hall
  let s : Scope := ((empty .repeating).performAll [.add "a" "i"]).1
  have hnew : s.nameOf? "j" = none := by decide
  obtain ⟨numbers, found, hsearch, hchecks⟩ :=
    hall .repeating [.add "a" "i"] "a" "j" Renaming.repeating_distinct hnew
  obtain ⟨k, rfl, rfl, howned, hfree⟩ := search_iff.1 hsearch
  -- the name and the first candidate are the same owned name, the next candidate is free
  have howned' : ∀ i < 2, s.attempt "a" i ∈ s.names := by decide
  have hfree' : s.attempt "a" 2 ∉ s.names := by decide
  have hk : k = 2 := attempt_unique howned hfree howned' hfree'
  subst hk
  exact absurd hchecks (by decide)

end Scope

end ImportPlan
