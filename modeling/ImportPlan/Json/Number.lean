import ImportPlan.Json.Leaf

namespace ImportPlan.Json

/-!
# Numbers

A number is an optional minus sign, an integer part without superfluous zeros, an optional fraction
and an optional exponent.

* `numberValue` — the value of a number: an integer if it is written as one and has at most 64 bits,
  otherwise a floating point number.
* `scanNumber` — scans the number at the start of a text.
-/

/-! ### Values -/

/-- The value of a decimal digit. -/
def digitValue (c : Char) : Nat := c.toNat - '0'.toNat

/-- The number of integers of 64 bits. -/
def wordSize : Nat := 18446744073709551616

/-- Appends digits to a significand as long as it stays below `wordSize`; gives it with the number
of digits that were appended. -/
def appendDigits (significand : Nat) : List Char → Nat × Nat
  | [] => (significand, 0)
  | d :: ds =>
    let next := significand * 10 + digitValue d
    if next < wordSize then
      let (s, n) := appendDigits next ds
      (s, n + 1)
    else (significand, 0)

/-- The written parts of a number. -/
structure NumberParts where
  negative : Bool
  integer : List Char
  /-- The digits after the point. -/
  fraction : Option (List Char)
  /-- The digits after the exponent mark, with their sign. -/
  exponent : Option (Bool × List Char)

/-- The value of digits. -/
def digitsValue (ds : List Char) : Nat := ds.foldl (fun n d => n * 10 + digitValue d) 0

/-- The floating point value: the leading digits that fit a significand of 64 bits, scaled. -/
def floatValue (p : NumberParts) : Except Fault Scalar :=
  let (s, kept) := appendDigits 0 p.integer
  let (significand, places) := appendDigits s (p.fraction.getD [])
  let scale : Int := match p.exponent with
    | none => 0
    | some (negative, ds) => if negative then -(digitsValue ds) else digitsValue ds
  let exponent := ((p.integer.length - kept : Nat) : Int) - places + scale
  match Binary64.Magnitude.ofDecimal significand exponent with
  | some magnitude => .ok (.float ⟨p.negative, magnitude⟩)
  | none => .error .malformed

/-- The value of a number. The negative zero and integers out of range are floating point numbers;
one that is beyond those is no value at all. -/
def numberValue (p : NumberParts) : Except Fault Scalar :=
  match p.fraction, p.exponent with
  | none, none =>
    let n := digitsValue p.integer
    if !p.negative && n < wordSize then .ok (.integer n)
    else if p.negative && 0 < n && n ≤ wordSize / 2 then .ok (.integer (-n))
    else floatValue p
  | _, _ => floatValue p

/-! ### Scanning -/

/-- A number whose next digit is missing before `rest`: whoever wants the value waits for more text,
whoever passes over it does not. -/
def Leaf.missingDigit (rest : List Char) : Leaf Scalar :=
  ⟨.error (if rest.isEmpty then .ended else .malformed), some .malformed⟩

/-- Whether a text starts an exponent. -/
def isExponentMark (c : Char) : Bool := c == 'e' || c == 'E'

/-- Scans the exponent of a number, if there is one. -/
def scanExponent (p : NumberParts) : List Char → Leaf Scalar × List Char
  | [] => (⟨numberValue p, none⟩, [])
  | c :: cs =>
    if isExponentMark c then
      let (negative, rest) := match cs with
        | '-' :: rest => (true, rest)
        | '+' :: rest => (false, rest)
        | rest => (false, rest)
      let digits := rest.takeWhile Char.isDigit
      let rest := rest.dropWhile Char.isDigit
      if digits.isEmpty then (.missingDigit rest, rest)
      else (⟨numberValue { p with exponent := some (negative, digits) }, none⟩, rest)
    else (⟨numberValue p, none⟩, c :: cs)

/-- Scans the fraction of a number, if there is one, and what follows it. -/
def scanFraction (p : NumberParts) : List Char → Leaf Scalar × List Char
  | '.' :: cs =>
    let digits := cs.takeWhile Char.isDigit
    let rest := cs.dropWhile Char.isDigit
    if digits.isEmpty then (.missingDigit rest, rest)
    else scanExponent { p with fraction := some digits } rest
  | cs => scanExponent p cs

/-- Scans the digits of a number after its sign: an integer part that starts with zero ends there.
-/
def scanDigits (negative : Bool) (cs : List Char) : Leaf Scalar × List Char :=
  let digits := cs.takeWhile Char.isDigit
  let rest := cs.dropWhile Char.isDigit
  match digits with
  | [] => (.missingDigit rest, rest)
  | '0' :: _ :: _ => (.ofFault .malformed, rest)
  | digits => scanFraction ⟨negative, digits, none, none⟩ rest

/-- Scans the number at the start of a text. -/
def scanNumber : List Char → Leaf Scalar × List Char
  | '-' :: cs => scanDigits true cs
  | cs => scanDigits false cs

/-! ### Lengths -/

/-- Dropping a run of characters leaves no more than there were. -/
theorem length_dropWhile_le (p : Char → Bool) (cs : List Char) :
    (cs.dropWhile p).length ≤ cs.length := (List.dropWhile_sublist p).length_le

theorem length_scanExponent (p : NumberParts) (cs : List Char) :
    (scanExponent p cs).2.length ≤ cs.length := by
  unfold scanExponent
  grind [length_dropWhile_le]

theorem length_scanFraction (p : NumberParts) (cs : List Char) :
    (scanFraction p cs).2.length ≤ cs.length := by
  unfold scanFraction
  grind [length_dropWhile_le, length_scanExponent]

theorem length_scanDigits (b : Bool) (cs : List Char) :
    (scanDigits b cs).2.length ≤ cs.length := by
  unfold scanDigits
  grind [length_dropWhile_le, length_scanFraction]

/-- A number takes at least the character that it starts with. -/
theorem length_scanNumber {c : Char} (cs : List Char) (h : c = '-' ∨ c.isDigit) :
    (scanNumber (c :: cs)).2.length ≤ cs.length := by
  unfold scanNumber
  split
  · next heq => grind [length_scanDigits]
  · next cs' hne =>
    have hc : c.isDigit := h.resolve_left fun hc => hne cs (by rw [hc])
    have hrest := length_dropWhile_le Char.isDigit cs
    simp only [scanDigits, List.takeWhile_cons_of_pos hc, List.dropWhile_cons_of_pos hc]
    split
    · contradiction
    · exact hrest
    · exact Nat.le_trans (length_scanFraction _ _) hrest

end ImportPlan.Json
