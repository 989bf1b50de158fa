import Mathlib
import ImportPlan.Path
import ImportPlan.Text.Quoted

namespace ImportPlan

/-!
# Quoting import paths

The characters of an import path can all be shown as they are, so that a quoted path is the path
between two quotes.

* `Text.standsAlone_of_ascii` — the ASCII characters from the space to the tilde are shown as they
  are; `Text.quoteChar_of_ascii` — so they are in quotes, but for the quote and the backslash.
* `Path.forall_of_isValid` — a path holds segment characters and slashes only.
* `Path.quote_of_isValid` — a path is quoted verbatim.
-/

namespace Text

/-- A character outside of all ranges of a table is not in the table. -/
theorem inRanges_eq_false {ranges : List (Nat × Nat)} {c : Char}
    (h : ∀ r ∈ ranges, r.2 < c.toNat ∨ c.toNat < r.1) : inRanges ranges c = false := by
  rw [inRanges, List.any_eq_false]
  intro r hr
  have hout := h r hr
  simp only [Bool.and_eq_true, decide_eq_true_eq]
  omega

/-- The ASCII characters from the space to the tilde are shown as they are. -/
theorem standsAlone_of_ascii {c : Char} (hlow : 0x20 ≤ c.toNat) (hhigh : c.toNat ≤ 0x7e) :
    standsAlone c = true := by
  -- every range of the tables ends before the space or starts behind the tilde
  have hout : ∀ ranges : List (Nat × Nat), (∀ r ∈ ranges, r.2 < 0x20 ∨ 0x7e < r.1) →
      inRanges ranges c = false := by
    intro ranges hranges
    refine inRanges_eq_false fun r hr => ?_
    have := hranges r hr
    omega
  have hprintable := hout unprintableRanges (by decide +kernel)
  have hcombining := hout combiningRanges (by decide +kernel)
  have hfiller := hout fillerRanges (by decide +kernel)
  simp [standsAlone, isPrintable, isCombining, isFiller, hprintable, hcombining, hfiller]

/-- The ASCII characters from the space to the tilde are quoted as they are, but for the quote and
the backslash. -/
theorem quoteChar_of_ascii {c : Char} (hlow : 0x20 ≤ c.toNat) (hhigh : c.toNat ≤ 0x7e)
    (hquote : c ≠ '"') (hbackslash : c ≠ '\\') : quoteChar c = [c] := by
  unfold quoteChar
  split
  · exact absurd rfl hquote
  · exact absurd rfl hbackslash
  -- the characters with short escapes come before the space
  · exact absurd hlow (by decide)
  · exact absurd hlow (by decide)
  · exact absurd hlow (by decide)
  · exact absurd hlow (by decide)
  · rw [if_pos (standsAlone_of_ascii hlow hhigh)]

end Text

namespace Path

/-- What is accepted holds segment characters and slashes only. -/
theorem forall_of_accepts {inside : Bool} {cs : List Char} (h : accepts inside cs = true) :
    ∀ c ∈ cs, c = '/' ∨ isSegmentChar c = true := by
  induction cs generalizing inside with
  | nil => simp
  | cons c rest ih =>
    by_cases hc : c = '/'
    · subst hc
      rw [accepts, Bool.and_eq_true] at h
      have hrest := ih h.2
      simpa using hrest
    · have hstep : isSegmentChar c = true ∧ accepts true rest = true := by
        simpa [accepts, hc] using h
      intro c' hc'
      rcases List.mem_cons.1 hc' with rfl | hmem
      · exact .inr hstep.1
      · exact ih hstep.2 c' hmem

/-- A path holds segment characters and slashes only. -/
theorem forall_of_isValid {path : String} (h : isValid path = true) :
    ∀ c ∈ path.toList, c = '/' ∨ isSegmentChar c = true :=
  forall_of_accepts h

/-- Segment characters are ASCII characters behind the space. -/
theorem toNat_of_isSegmentChar {c : Char} (h : isSegmentChar c = true) :
    0x20 ≤ c.toNat ∧ c.toNat ≤ 0x7e := by
  simp only [isSegmentChar, Bool.or_eq_true, beq_iff_eq] at h
  rcases h with ((((h | rfl) | rfl) | rfl) | rfl) | rfl
  · simp only [Char.isAlphanum, Char.isAlpha, Char.isUpper, Char.isLower, Char.isDigit,
      Bool.or_eq_true, Bool.and_eq_true, decide_eq_true_eq, UInt32.le_iff_toNat_le, ge_iff_le] at h
    have hval : c.toNat = c.val.toNat := rfl
    have hA : 'A'.val.toNat = 65 := rfl
    have hZ : 'Z'.val.toNat = 90 := rfl
    have ha : 'a'.val.toNat = 97 := rfl
    have hz : 'z'.val.toNat = 122 := rfl
    have h0 : '0'.val.toNat = 48 := rfl
    have h9 : '9'.val.toNat = 57 := rfl
    omega
  all_goals decide

/-- The characters of a path are quoted as they are. -/
theorem quoteChar_of_isSegmentChar {c : Char} (h : c = '/' ∨ isSegmentChar c = true) :
    Text.quoteChar c = [c] := by
  have hrange : 0x20 ≤ c.toNat ∧ c.toNat ≤ 0x7e := by
    rcases h with rfl | hsegment
    · decide
    · exact toNat_of_isSegmentChar hsegment
  refine Text.quoteChar_of_ascii hrange.1 hrange.2 ?_ ?_
  · rintro rfl
    exact absurd h (by decide)
  · rintro rfl
    exact absurd h (by decide)

/-- **A path is quoted verbatim.** -/
theorem quote_of_isValid {path : String} (h : isValid path = true) :
    Text.quote path = "\"" ++ path ++ "\"" := by
  have hchar : ∀ c ∈ path.toList, Text.quoteChar c = [c] := fun c hc =>
    quoteChar_of_isSegmentChar (forall_of_isValid h c hc)
  have hflat : path.toList.flatMap Text.quoteChar = path.toList := by
    rw [List.flatMap_congr hchar, List.flatMap_singleton']
  rw [Text.quote, hflat, String.ofList_append, ← List.singleton_append, String.ofList_append,
    String.ofList_toList]

end Path

end ImportPlan
