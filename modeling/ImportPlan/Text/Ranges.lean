namespace ImportPlan.Text

/-!
# Ranges of characters

* `inRanges` — membership of a character in a sorted table of code point ranges, each given by its
  first and last member.
-/

/-- Whether the code point of `c` lies in one of the ranges. -/
def inRanges (ranges : List (Nat × Nat)) (c : Char) : Bool :=
  ranges.any fun r => r.1 ≤ c.toNat && c.toNat ≤ r.2

end ImportPlan.Text
