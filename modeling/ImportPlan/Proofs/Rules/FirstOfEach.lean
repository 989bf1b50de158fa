import Mathlib

namespace ImportPlan

/-!
# First entries

The documents of a project ask for the same import many times, and a redirection may send several
ids to one. Only the first entry for an id counts.

* `firstOfEach` — the entries whose key no earlier entry has, in their order.
* `firstOfEach_append` — what a second list adds to a first one.
* `firstOfEach_firstOfEach` — first entries for a finer key may be taken first.
* `nodup_map_firstOfEach`, `firstOfEach_of_nodup` — afterwards no key comes twice, and entries of
  which that is true already stay as they are.
-/

variable {α β γ : Type} [DecidableEq β]

/-- The entries whose key no earlier entry has, in their order. -/
def firstOfEach (key : α → β) : List α → List α
  | [] => []
  | a :: l => a :: (firstOfEach key l).filter fun b => key b ≠ key a

theorem firstOfEach_cons (key : α → β) (a : α) (l : List α) :
    firstOfEach key (a :: l) = a :: (firstOfEach key l).filter fun b => key b ≠ key a := rfl

/-- Every key has a first entry. -/
theorem mem_map_firstOfEach (key : α → β) (l : List α) (k : β) :
    k ∈ (firstOfEach key l).map key ↔ k ∈ l.map key := by
  induction l with
  | nil => rfl
  | cons a l ih =>
    rw [firstOfEach_cons, List.map_cons, List.map_cons, List.mem_cons, List.mem_cons, ← ih]
    by_cases hk : k = key a
    · simp [hk]
    · -- entries with another key than the first one pass the filter
      simp only [hk, false_or, List.mem_map, List.mem_filter, decide_eq_true_iff]
      grind

/-- First entries have distinct keys. -/
theorem nodup_map_firstOfEach (key : α → β) (l : List α) :
    ((firstOfEach key l).map key).Nodup := by
  induction l with
  | nil => exact List.nodup_nil
  | cons a l ih =>
    rw [firstOfEach_cons, List.map_cons, List.nodup_cons]
    refine ⟨?_, ih.sublist (List.filter_sublist.map key)⟩
    intro hmem
    obtain ⟨b, hb, heq⟩ := List.mem_map.1 hmem
    have hne : key b ≠ key a := by simpa using (List.mem_filter.1 hb).2
    exact hne heq

/-- Entries with distinct keys are all first. -/
theorem firstOfEach_of_nodup {key : α → β} {l : List α} (h : (l.map key).Nodup) :
    firstOfEach key l = l := by
  induction l with
  | nil => rfl
  | cons a l ih =>
    rw [List.map_cons, List.nodup_cons] at h
    rw [firstOfEach_cons, ih h.2, List.filter_eq_self.2]
    intro b hb
    have hne : key b ≠ key a := fun heq => h.1 (heq ▸ List.mem_map_of_mem hb)
    simpa using hne

/-- Of a second list, the first entries for new keys are added. -/
theorem firstOfEach_append (key : α → β) (l l' : List α) :
    firstOfEach key (l ++ l') =
      firstOfEach key l ++ (firstOfEach key l').filter fun b => key b ∉ l.map key := by
  induction l with
  | nil => simp [firstOfEach]
  | cons a l ih =>
    rw [List.cons_append, firstOfEach_cons, ih, firstOfEach_cons, List.filter_append,
      List.filter_filter, List.cons_append]
    congr 2
    refine List.filter_congr fun b _ => ?_
    simp [not_or]

/-- First entries of images are the images of first entries. -/
theorem firstOfEach_map (f : γ → α) (key : α → β) (l : List γ) :
    firstOfEach key (l.map f) = (firstOfEach (key ∘ f) l).map f := by
  induction l with
  | nil => rfl
  | cons c l ih =>
    rw [List.map_cons, firstOfEach_cons, ih, firstOfEach_cons, List.map_cons, List.filter_map]
    rfl

/-- Keys that tell the same entries apart have the same first entries. -/
theorem firstOfEach_congr [DecidableEq γ] {f : α → γ} {g : α → β}
    (hfg : ∀ a b, f a = f b ↔ g a = g b) (l : List α) : firstOfEach f l = firstOfEach g l := by
  induction l with
  | nil => rfl
  | cons a l ih =>
    rw [firstOfEach_cons, firstOfEach_cons, ih]
    refine congrArg (a :: ·) (List.filter_congr fun b _ => ?_)
    rw [decide_eq_decide]
    exact not_congr (hfg b a)

/-- Entries that a condition on their keys removes may be missing from the start. -/
theorem filter_firstOfEach_filter (key : α → β) (p : α → Bool) (q : β → Bool) {l : List α}
    (hpq : ∀ a ∈ l, q (key a) = true → p a = true) :
    (firstOfEach key (l.filter p)).filter (q ∘ key) = (firstOfEach key l).filter (q ∘ key) := by
  induction l with
  | nil => rfl
  | cons a l ih =>
    have hrest := ih fun b hb => hpq b (List.mem_cons_of_mem a hb)
    have hswap : ∀ m : List α,
        (m.filter fun b => key b ≠ key a).filter (q ∘ key) =
          (m.filter (q ∘ key)).filter fun b => key b ≠ key a := by
      intro m
      rw [List.filter_filter, List.filter_filter]
      exact List.filter_congr fun b _ => Bool.and_comm _ _
    by_cases hq : (q ∘ key) a = true
    · -- the entry stays on both sides
      rw [List.filter_cons_of_pos (hpq a List.mem_cons_self hq), firstOfEach_cons,
        firstOfEach_cons, List.filter_cons_of_pos hq, List.filter_cons_of_pos hq, hswap, hswap,
        hrest]
    · -- the entry goes, and with it all others that have its key
      have hgone : ∀ m : List α, (m.filter fun b => key b ≠ key a).filter (q ∘ key) =
          m.filter (q ∘ key) := by
        intro m
        rw [List.filter_filter]
        refine List.filter_congr fun b _ => ?_
        by_cases hb : key b = key a
        · have hqb : q (key b) = false := by rw [hb]; simpa using hq
          simp [hqb]
        · simp [hb]
      rw [firstOfEach_cons, List.filter_cons_of_neg hq, hgone, ← hrest]
      by_cases hp : p a = true
      · rw [List.filter_cons_of_pos hp, firstOfEach_cons, List.filter_cons_of_neg hq, hgone]
      · rw [List.filter_cons_of_neg hp]

/-- **First entries for a finer key may be taken first**: an entry that repeats the finer key
repeats the coarser one too. -/
theorem firstOfEach_firstOfEach [DecidableEq γ] {f : α → γ} {g : α → β}
    (hfg : ∀ a b, f a = f b → g a = g b) (l : List α) :
    firstOfEach g (firstOfEach f l) = firstOfEach g l := by
  induction l with
  | nil => rfl
  | cons a l ih =>
    have hfiner : ∀ b ∈ firstOfEach f l, decide (g b ≠ g a) = true →
        decide (f b ≠ f a) = true := by
      intro b _ hne
      rw [decide_eq_true_iff] at hne ⊢
      exact fun heq => hne (hfg b a heq)
    rw [firstOfEach_cons, firstOfEach_cons, firstOfEach_cons, ← ih]
    exact congrArg (a :: ·)
      (filter_firstOfEach_filter g (fun b => f b ≠ f a) (fun k => k ≠ g a) hfiner)

/-- Inside of a list, first entries may be taken first as well. -/
theorem firstOfEach_append_firstOfEach (key : α → β) (l m n : List α) :
    firstOfEach key (l ++ (firstOfEach key m ++ n)) = firstOfEach key (l ++ (m ++ n)) := by
  have hidem : firstOfEach key (firstOfEach key m) = firstOfEach key m :=
    firstOfEach_firstOfEach (fun _ _ h => h) m
  have hkeys : ∀ k, k ∉ (firstOfEach key m).map key ↔ k ∉ m.map key := fun k =>
    not_congr (mem_map_firstOfEach key m k)
  simp only [firstOfEach_append, hidem, hkeys]

end ImportPlan
