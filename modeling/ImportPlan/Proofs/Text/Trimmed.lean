import Mathlib
import ImportPlan.Text.Blank

namespace ImportPlan.Text

/-!
# Trimmed texts

What trimming leaves of a text, and where a text is cut.

* `IsTrimmed` — texts without blank characters at their ends; `trim_eq_self` — they stay as they
  are.
* `TrimsTo` — a text without the blank characters at its ends; `trim_eq_iff` — trimming gives that.
* `AllBlank` — texts of blank characters only; `trim_surround` — around a text they are lost when
  it is trimmed.
* `splitAtFirst_of_not_mem`, `splitAtFirst_append` — a text is cut at the first separator, whatever
  comes behind that.
-/

/-- No blank character stands at either end of the text. -/
def IsTrimmed (s : String) : Prop :=
  (∀ c ∈ s.toList.head?, isBlank c = false) ∧ ∀ c ∈ s.toList.getLast?, isBlank c = false

/-- Nothing is dropped before a character that is kept. -/
theorem dropWhile_of_head? {p : Char → Bool} {cs : List Char} (h : ∀ c ∈ cs.head?, p c = false) :
    cs.dropWhile p = cs := by
  cases cs with
  | nil => rfl
  | cons c cs =>
    apply List.dropWhile_cons_of_neg
    simp [h c rfl]

/-- Trimming leaves a trimmed text as it is. -/
theorem trim_eq_self {s : String} (h : IsTrimmed s) : trim s = s := by
  have hlast : ∀ c ∈ s.toList.reverse.head?, isBlank c = false := by
    rw [List.head?_reverse]
    exact h.2
  rw [trim, trimChars, dropWhile_of_head? h.1, dropWhile_of_head? hlast, List.reverse_reverse,
    String.ofList_toList]

/-- `t` is what is left of `s` without the blank characters at its ends. -/
def TrimsTo (s t : String) : Prop :=
  ∃ front back : List Char, (∀ c ∈ front ++ back, isBlank c = true) ∧
    s.toList = front ++ t.toList ++ back ∧ IsTrimmed t

/-- What is dropped from the start, up to a character that is kept. -/
theorem exists_dropWhile_eq (p : Char → Bool) (cs : List Char) :
    ∃ front, (∀ c ∈ front, p c = true) ∧ cs = front ++ cs.dropWhile p ∧
      ∀ c ∈ (cs.dropWhile p).head?, p c = false := by
  refine ⟨cs.takeWhile p, fun c hc => List.mem_takeWhile_imp hc,
    List.takeWhile_append_dropWhile.symm, fun c hc => ?_⟩
  have hhead := List.head?_dropWhile_not p cs
  rw [Option.mem_def.1 hc] at hhead
  simpa using hhead

/-- Trimming takes the blank characters off both ends. -/
theorem trimsTo_trim (s : String) : TrimsTo s (trim s) := by
  obtain ⟨front, hfront, hs, hhead⟩ := exists_dropWhile_eq isBlank s.toList
  obtain ⟨back, hback, hmiddle, hlast⟩ :=
    exists_dropWhile_eq isBlank (s.toList.dropWhile isBlank).reverse
  have hrest : s.toList.dropWhile isBlank = trimChars s.toList ++ back.reverse := by
    have := congrArg List.reverse hmiddle
    rwa [List.reverse_reverse, List.reverse_append] at this
  refine ⟨front, back.reverse, ?_, ?_, ?_, ?_⟩
  · intro c hc
    rcases List.mem_append.1 hc with hmem | hmem
    · exact hfront c hmem
    · exact hback c (List.mem_reverse.1 hmem)
  · rw [trim, String.toList_ofList, List.append_assoc, ← hrest]
    exact hs
  · intro c hc
    rw [trim, String.toList_ofList] at hc
    apply hhead
    rw [hrest, List.head?_append, Option.mem_def.1 hc]
    rfl
  · intro c hc
    rw [trim, String.toList_ofList, trimChars, List.getLast?_reverse] at hc
    exact hlast c hc

/-- **Trimming gives the text without the blank characters at its ends.** -/
theorem trim_eq_iff {s t : String} : trim s = t ↔ TrimsTo s t := by
  constructor
  · rintro rfl
    exact trimsTo_trim s
  · rintro ⟨front, back, hblank, hs, htrimmed⟩
    rw [List.forall_mem_append] at hblank
    have hback : ∀ c ∈ back.reverse, isBlank c = true := fun c hc =>
      hblank.2 c (List.mem_reverse.1 hc)
    have hlast : ∀ c ∈ t.toList.reverse.head?, isBlank c = false := by
      rw [List.head?_reverse]
      exact htrimmed.2
    rw [trim, trimChars, hs, List.append_assoc, List.dropWhile_append_of_pos hblank.1]
    cases ht : t.toList with
    | nil =>
      -- nothing but blank characters: none of them is left
      rw [List.nil_append, List.dropWhile_eq_nil_iff.2 hblank.2]
      exact String.toList_inj.1 ht.symm
    | cons c cs =>
      have hhead : ∀ d ∈ (c :: cs ++ back).head?, isBlank d = false := by
        have hstart := htrimmed.1
        rw [ht] at hstart
        exact hstart
      rw [dropWhile_of_head? hhead, ← ht, List.reverse_append, List.dropWhile_append_of_pos hback,
        dropWhile_of_head? hlast, List.reverse_reverse, String.ofList_toList]

/-! ### Blank texts around a text -/

/-- The text has no characters but blank ones. -/
def AllBlank (s : String) : Prop := ∀ c ∈ s.toList, isBlank c = true

instance (s : String) : Decidable (AllBlank s) :=
  decidable_of_iff (s.toList.all isBlank = true) List.all_eq_true

theorem AllBlank.append {s t : String} (hs : AllBlank s) (ht : AllBlank t) : AllBlank (s ++ t) := by
  rw [AllBlank, String.toList_append, List.forall_mem_append]
  exact ⟨hs, ht⟩

theorem AllBlank.not_mem {s : String} {c : Char} (hs : AllBlank s) (hc : isBlank c = false) :
    c ∉ s.toList := by
  intro hmem
  rw [hs c hmem] at hc
  cases hc

/-- A text is what trimming leaves of it, between two blank texts. -/
theorem trimsTo_iff {s t : String} :
    TrimsTo s t ↔ ∃ front back : String,
      AllBlank front ∧ AllBlank back ∧ s = front ++ t ++ back ∧ IsTrimmed t := by
  constructor
  · rintro ⟨front, back, hblank, hs, ht⟩
    rw [List.forall_mem_append] at hblank
    refine ⟨String.ofList front, String.ofList back, ?_, ?_, ?_, ht⟩
    · rw [AllBlank, String.toList_ofList]
      exact hblank.1
    · rw [AllBlank, String.toList_ofList]
      exact hblank.2
    · rw [← String.toList_inj, hs]
      simp
  · rintro ⟨front, back, hfront, hback, rfl, ht⟩
    exact ⟨front.toList, back.toList, List.forall_mem_append.2 ⟨hfront, hback⟩, by simp, ht⟩

/-- **Blank texts around a text are lost when it is trimmed.** -/
theorem trim_surround {front s back : String} (hfront : AllBlank front) (hback : AllBlank back) :
    trim (front ++ s ++ back) = trim s := by
  obtain ⟨front', back', hfront', hback', hs, htrimmed⟩ := trimsTo_iff.1 (trimsTo_trim s)
  have htext : front ++ s ++ back = front ++ front' ++ trim s ++ (back' ++ back) := by
    conv_lhs => rw [hs]
    simp only [String.append_assoc]
  exact trim_eq_iff.2 <|
    trimsTo_iff.2 ⟨_, _, hfront.append hfront', hback'.append hback, htext, htrimmed⟩

/-- Blank texts bring in no character that is not blank. -/
theorem mem_surround_iff {front s back : String} {c : Char} (hc : isBlank c = false)
    (hfront : AllBlank front) (hback : AllBlank back) :
    c ∈ (front ++ s ++ back).toList ↔ c ∈ s.toList := by
  simp [hfront.not_mem hc, hback.not_mem hc]

/-! ### Where a text is cut -/

variable {separator : Char} {before : String}

theorem bne_of_not_mem {cs : List Char} (h : separator ∉ cs) :
    ∀ c ∈ cs, (c != separator) = true := by
  intro c hc
  rw [bne_iff_ne]
  rintro rfl
  exact h hc

/-- A text without the separator is not cut. -/
theorem splitAtFirst_of_not_mem (h : separator ∉ before.toList) :
    splitAtFirst separator before = (before, none) := by
  have hall : ∀ c ∈ before.toList, (c != separator) = true := bne_of_not_mem h
  have htake := List.takeWhile_eq_self_iff.2 hall
  have hdrop := List.dropWhile_eq_nil_iff.2 hall
  simp only [splitAtFirst, htake, hdrop, String.ofList_toList]

/-- A text is cut at the first separator, whatever comes behind that. -/
theorem splitAtFirst_append (h : separator ∉ before.toList) (after : String) :
    splitAtFirst separator (before ++ separator.toString ++ after) = (before, some after) := by
  have hall : ∀ c ∈ before.toList, (c != separator) = true := bne_of_not_mem h
  have hchars : (before ++ separator.toString ++ after).toList =
      before.toList ++ separator :: after.toList := by
    simp
  simp only [splitAtFirst, hchars, List.takeWhile_append_of_pos hall,
    List.dropWhile_append_of_pos hall]
  simp

/-- A text with the separator can be cut at the first one. -/
theorem exists_append_of_mem {s : String} (h : separator ∈ s.toList) :
    ∃ before after : String,
      separator ∉ before.toList ∧ s = before ++ separator.toString ++ after := by
  obtain ⟨front, back, hs, hfront⟩ := List.eq_append_cons_of_mem h
  refine ⟨String.ofList front, String.ofList back, by simpa using hfront, ?_⟩
  rw [← String.toList_inj, hs]
  simp

end ImportPlan.Text
