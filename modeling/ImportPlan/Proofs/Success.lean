import Mathlib

namespace ImportPlan

/-!
# Computations that succeed

What the steps of a computation have given if the computation as a whole has succeeded.

* `bind_eq_ok_iff`, `mapError_eq_ok_iff` — a computation succeeds if its steps do.
* `of_foldlM_eq_ok` — what every step keeps holds in the end.
* `foldlM_eq_of_forall₂` — folds over lists that go together give the same if their steps do.
* `foldlM_perm` — a fold whose steps commute gives the same in whichever order they come.
* `exists_mapM_eq_ok`, `mapM_eq_error` — what a traversal gives, by what its steps give.
* `mapM_eq_ok_iff`, `mapM_eq_error_iff` — a traversal gives the results of its steps, or the error
  of the first one that fails.
-/

variable {ε ε' α β : Type}

/-- A computation in two steps succeeds if both do, the second one on the result of the first. -/
theorem bind_eq_ok_iff {x : Except ε α} {f : α → Except ε β} {b : β} :
    x >>= f = .ok b ↔ ∃ a, x = .ok a ∧ f a = .ok b := by
  cases x with
  | error e => simp [bind, Except.bind]
  | ok a => simp [bind, Except.bind]

/-- Errors are reworded in computations that do not succeed anyway. -/
theorem mapError_eq_ok_iff {x : Except ε α} {f : ε → ε'} {a : α} :
    x.mapError f = .ok a ↔ x = .ok a := by
  cases x <;> simp [Except.mapError]

/-- What every step of a fold keeps holds in the end, if the fold succeeds. -/
theorem of_foldlM_eq_ok {f : β → α → Except ε β} {P : β → Prop}
    (hstep : ∀ b a b', P b → f b a = .ok b' → P b') {l : List α} {b b' : β} (hb : P b)
    (h : l.foldlM f b = .ok b') : P b' := by
  induction l generalizing b with
  | nil =>
    cases h
    exact hb
  | cons a l ih =>
    rw [List.foldlM_cons, bind_eq_ok_iff] at h
    obtain ⟨c, hc, hrest⟩ := h
    exact ih (hstep b a c hb hc) hrest

/-- Folds over lists that go together give the same if their steps do, be it a result or an
error. -/
theorem foldlM_eq_of_forall₂ {f : β → α → Except ε β} {R : α → α → Prop} {l l' : List α}
    (h : List.Forall₂ R l l') (hstep : ∀ a a', R a a' → ∀ b, f b a' = f b a) {b : β} :
    l'.foldlM f b = l.foldlM f b := by
  induction h generalizing b with
  | nil => rfl
  | cons ha _ ih =>
    rw [List.foldlM_cons, List.foldlM_cons, hstep _ _ ha]
    exact bind_congr fun _ => ih

/-- A fold that succeeds does so in whichever order its steps come, if two of them that succeed in
turn lead to the same the other way round. -/
theorem foldlM_perm {f : β → α → Except ε β}
    (hcomm : ∀ {b b₁ b₂ a a'}, f b a = .ok b₁ → f b₁ a' = .ok b₂ →
      ∃ b₁', f b a' = .ok b₁' ∧ f b₁' a = .ok b₂)
    {l l' : List α} (hperm : l.Perm l') {b b' : β} (h : l.foldlM f b = .ok b') :
    l'.foldlM f b = .ok b' := by
  induction hperm generalizing b with
  | nil => exact h
  | cons a _ ih =>
    rw [List.foldlM_cons, bind_eq_ok_iff] at h ⊢
    obtain ⟨c, hc, hrest⟩ := h
    exact ⟨c, hc, ih hrest⟩
  | swap a a' l =>
    simp only [List.foldlM_cons, bind_eq_ok_iff] at h ⊢
    obtain ⟨b₁, hb₁, b₂, hb₂, hrest⟩ := h
    obtain ⟨b₁', hb₁', hb₂'⟩ := hcomm hb₁ hb₂
    exact ⟨b₁', hb₁', b₂, hb₂', hrest⟩
  | trans _ _ ih ih' => exact ih' (ih h)

/-- What a traversal gives if all of its steps succeed: their results. -/
theorem exists_mapM_eq_ok {f : α → Except ε β} {l : List α} (h : ∀ a ∈ l, ∃ b, f a = .ok b) :
    ∃ bs, l.mapM f = .ok bs ∧ ∀ b, b ∈ bs ↔ ∃ a ∈ l, f a = .ok b := by
  induction l with
  | nil => exact ⟨[], rfl, by simp⟩
  | cons a l ih =>
    rw [List.forall_mem_cons] at h
    obtain ⟨b, hb⟩ := h.1
    obtain ⟨bs, hbs, hmem⟩ := ih h.2
    refine ⟨b :: bs, ?_, fun b' => ?_⟩
    · rw [List.mapM_cons, hb, hbs]
      rfl
    · simp [hmem, hb, eq_comm]

/-- A traversal whose steps fail in one way only fails so, if one of them does. -/
theorem mapM_eq_error {f : α → Except ε β} {e : ε} {l : List α}
    (h : ∀ a ∈ l, (∃ b, f a = .ok b) ∨ f a = .error e) (hfails : ∃ a ∈ l, f a = .error e) :
    l.mapM f = .error e := by
  induction l with
  | nil =>
    obtain ⟨a, ha, -⟩ := hfails
    exact absurd ha List.not_mem_nil
  | cons a l ih =>
    rw [List.forall_mem_cons] at h
    rw [List.mapM_cons]
    rcases h.1 with ⟨b, hb⟩ | herror
    · obtain ⟨a', ha', herror⟩ := hfails
      have hrest : a' ∈ l := by
        rcases List.mem_cons.1 ha' with rfl | hmem
        · rw [hb] at herror
          cases herror
        · exact hmem
      rw [hb, ih h.2 ⟨a', hrest, herror⟩]
      rfl
    · rw [herror]
      rfl

/-- A traversal gives the results of its steps, if all of them succeed. -/
theorem mapM_eq_ok_iff {f : α → Except ε β} {l : List α} {bs : List β} :
    l.mapM f = .ok bs ↔ List.Forall₂ (fun a b => f a = .ok b) l bs := by
  induction l generalizing bs with
  | nil =>
    rw [List.forall₂_nil_left_iff]
    exact ⟨fun h => (Except.ok.inj h).symm, fun h => congrArg Except.ok h.symm⟩
  | cons a l ih =>
    rw [List.mapM_cons, bind_eq_ok_iff, List.forall₂_cons_left_iff]
    refine exists_congr fun b => ?_
    rw [bind_eq_ok_iff]
    constructor
    · rintro ⟨hb, bs', hbs', heq⟩
      exact ⟨bs', hb, ih.1 hbs', (Except.ok.inj heq).symm⟩
    · rintro ⟨bs', hb, hbs', rfl⟩
      exact ⟨hb, bs', ih.2 hbs', rfl⟩

/-- In lists that go together, each place has its counterpart. -/
theorem exists_getElem?_of_forall₂ {R : α → β → Prop} {l : List α} {l' : List β}
    (h : List.Forall₂ R l l') {i : Nat} {a : α} (ha : l[i]? = some a) :
    ∃ b, l'[i]? = some b ∧ R a b := by
  obtain ⟨hi, rfl⟩ := List.getElem?_eq_some_iff.1 ha
  have hi' : i < l'.length := h.length_eq ▸ hi
  exact ⟨l'[i], List.getElem?_eq_getElem hi', h.get hi hi'⟩

/-- In lists that go together, each member has its counterpart. -/
theorem exists_of_forall₂ {R : α → β → Prop} {l : List α} {l' : List β} (h : List.Forall₂ R l l')
    {a : α} (ha : a ∈ l) : ∃ b ∈ l', R a b := by
  obtain ⟨i, hi⟩ := List.mem_iff_getElem?.1 ha
  obtain ⟨b, hb, hR⟩ := exists_getElem?_of_forall₂ h hi
  exact ⟨b, List.mem_of_getElem? hb, hR⟩

/-- Splitting a list at one of its members. -/
theorem exists_cons_eq_append_iff {P : List α → α → List α → Prop} {a : α} {l : List α} :
    (∃ before x after, a :: l = before ++ x :: after ∧ P before x after) ↔
      P [] a l ∨ ∃ before x after, l = before ++ x :: after ∧ P (a :: before) x after := by
  constructor
  · rintro ⟨before, x, after, heq, h⟩
    cases before with
    | nil =>
      cases heq
      exact .inl h
    | cons b before =>
      cases heq
      exact .inr ⟨before, x, after, rfl, h⟩
  · rintro (h | ⟨before, x, after, rfl, h⟩)
    · exact ⟨[], a, l, rfl, h⟩
    · exact ⟨a :: before, x, after, rfl, h⟩

/-- A traversal fails as the first one of its steps that does. -/
theorem mapM_eq_error_iff {f : α → Except ε β} {e : ε} {l : List α} :
    l.mapM f = .error e ↔ ∃ before a after, l = before ++ a :: after ∧
      (∀ x ∈ before, ∃ b, f x = .ok b) ∧ f a = .error e := by
  induction l with
  | nil => exact iff_of_false nofun (by simp)
  | cons a l ih =>
    rw [List.mapM_cons, exists_cons_eq_append_iff]
    cases ha : f a with
    | error e' =>
      -- no later step is made
      have hlater : ¬ ∃ before x after, l = before ++ x :: after ∧
          (∀ y ∈ a :: before, ∃ b, f y = .ok b) ∧ f x = .error e := by
        rintro ⟨before, x, after, -, hbefore, -⟩
        obtain ⟨b, hb⟩ := hbefore a List.mem_cons_self
        rw [ha] at hb
        cases hb
      rw [or_iff_left hlater]
      show (Except.error e' : Except ε (List β)) = .error e ↔ _
      simp
    | ok b =>
      have hnow : ¬ ((∀ x ∈ ([] : List α), ∃ b, f x = .ok b) ∧ (.ok b : Except ε β) = .error e) :=
        fun h => nomatch h.2
      rw [or_iff_right hnow]
      have hrest : (List.mapM f l >>= fun bs => (pure (b :: bs) : Except ε (List β))) = .error e ↔
          l.mapM f = .error e := by
        cases l.mapM f <;> simp [bind, Except.bind, pure, Except.pure]
      refine hrest.trans (ih.trans ?_)
      simp only [List.forall_mem_cons, ha, Except.ok.injEq, exists_eq', true_and]

end ImportPlan
