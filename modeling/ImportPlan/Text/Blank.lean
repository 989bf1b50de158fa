import ImportPlan.Text.Ranges

namespace ImportPlan.Text

/-!
# Blank characters and trimming

* `isBlank` — the characters with the Unicode property `White_Space`.
* `trim` — a text without the blank characters at its two ends.
* `splitAtFirst` — a text cut at the first occurrence of a separator.
-/

/-- The ranges of the Unicode property `White_Space`. -/
def blankRanges : List (Nat × Nat) :=
  [(0x9, 0xd), (0x20, 0x20), (0x85, 0x85), (0xa0, 0xa0), (0x1680, 0x1680), (0x2000, 0x200a),
   (0x2028, 0x2029), (0x202f, 0x202f), (0x205f, 0x205f), (0x3000, 0x3000)]

/-- Whether `c` has the property `White_Space`. -/
def isBlank (c : Char) : Bool := inRanges blankRanges c

/-- The ASCII characters that are white space are blank. -/
theorem isBlank_of_isWhitespace {c : Char} (h : c.isWhitespace) : isBlank c := by
  simp only [Char.isWhitespace, Bool.or_eq_true, decide_eq_true_eq] at h
  rcases h with ((rfl | rfl) | rfl) | rfl <;> decide

/-! ### Trimming -/

/-- The characters of a text from its first to its last one that is not blank. -/
def trimChars (cs : List Char) : List Char :=
  ((cs.dropWhile isBlank).reverse.dropWhile isBlank).reverse

/-- Removes the blank characters at both ends. -/
def trim (s : String) : String := String.ofList (trimChars s.toList)

/-! ### Splitting -/

/-- The text before the first `separator` and, if there is one, the text after it. -/
def splitAtFirst (separator : Char) (s : String) : String × Option String :=
  let before := s.toList.takeWhile (· != separator)
  let after := match s.toList.dropWhile (· != separator) with
    | [] => none
    | _ :: rest => some (String.ofList rest)
  (String.ofList before, after)

end ImportPlan.Text
