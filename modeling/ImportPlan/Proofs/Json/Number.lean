import ImportPlan.Proofs.Json.Literal

namespace ImportPlan.Json

/-!
# Written numbers

A number is written as an optional minus sign, digits without superfluous zeros, an optional
fraction and an optional exponent. In each of these ways it is scanned as a whole.

* `SpellsFraction`, `SpellsExponent`, `SpellsNumber` — the ways to write a number and its parts.
* `scanNumber_of_spellsNumber` — a written number is scanned as its parts.
* `spellsNumber_renderNumber` — an integer is rendered in one of these ways.
-/

/-! ### Ways to write numbers -/

/-- Digits, at least one. -/
def IsDigits (ds : List Char) : Prop := ds ≠ [] ∧ ∀ c ∈ ds, c.isDigit = true

/-- The ways to write a fraction. -/
inductive SpellsFraction : Option (List Char) → List Char → Prop
  | absent : SpellsFraction none []
  | digits {ds : List Char} (h : IsDigits ds) : SpellsFraction (some ds) ('.' :: ds)

/-- The ways to write an exponent; a plus sign may stand where no minus sign does. -/
inductive SpellsExponent : Option (Bool × List Char) → List Char → Prop
  | absent : SpellsExponent none []
  | digits {mark : Char} {negative : Bool} {sign ds : List Char}
    (hmark : isExponentMark mark = true)
    (hsign : (negative, sign) ∈ [(false, []), (false, ['+']), (true, ['-'])]) (h : IsDigits ds) :
    SpellsExponent (some (negative, ds)) (mark :: (sign ++ ds))

/-- The ways to write a number. Only zero has an integer part that starts with a zero. -/
inductive SpellsNumber : NumberParts → List Char → Prop
  | parts {negative : Bool} {integer : List Char} {fraction : Option (List Char)}
    {exponent : Option (Bool × List Char)} {w w' : List Char} (hinteger : IsDigits integer)
    (hzero : integer.head? = some '0' → integer = ['0']) (hfraction : SpellsFraction fraction w)
    (hexponent : SpellsExponent exponent w') :
    SpellsNumber ⟨negative, integer, fraction, exponent⟩
      ((if negative then ['-'] else []) ++ (integer ++ (w ++ w')))

variable {negative : Bool} {p : NumberParts} {integer w w' rest : List Char}
  {fraction : Option (List Char)} {exponent : Option (Bool × List Char)}

/-! ### Scanning -/

/-- The text goes on with no digit. -/
def EndsDigits : List Char → Prop
  | [] => True
  | c :: _ => c.isDigit = false

theorem EndsNumber.endsDigits (h : EndsNumber rest) : EndsDigits rest := by
  cases rest with
  | nil => trivial
  | cons c cs => exact h.1

/-- Digits end where no digit follows. -/
theorem span_isDigit {ds : List Char} (hds : ∀ c ∈ ds, c.isDigit = true) (hrest : EndsDigits rest) :
    (ds ++ rest).takeWhile Char.isDigit = ds ∧ (ds ++ rest).dropWhile Char.isDigit = rest := by
  have hstop : rest.takeWhile Char.isDigit = [] ∧ rest.dropWhile Char.isDigit = rest := by
    cases rest with
    | nil => exact ⟨rfl, rfl⟩
    | cons c cs =>
      have hdigit : ¬ c.isDigit = true := Bool.eq_false_iff.1 hrest
      exact ⟨List.takeWhile_cons_of_neg hdigit, List.dropWhile_cons_of_neg hdigit⟩
  rw [List.takeWhile_append_of_pos hds, List.dropWhile_append_of_pos hds, hstop.1, hstop.2]
  exact ⟨List.append_nil _, rfl⟩

/-- A sign is no digit, and neither is what starts a fraction or an exponent. -/
theorem not_isDigit {c : Char} (h : c = '-' ∨ c = '+' ∨ c = '.' ∨ isExponentMark c = true) :
    c.isDigit = false := by
  simp only [isExponentMark, Bool.or_eq_true, beq_iff_eq] at h
  rcases h with rfl | rfl | rfl | rfl | rfl <;> decide

/-- Digits are followed by what is written of an exponent and by what ends the number. -/
theorem SpellsExponent.endsDigits (h : SpellsExponent exponent w) (hrest : EndsNumber rest) :
    EndsDigits (w ++ rest) := by
  cases h with
  | absent => exact hrest.endsDigits
  | digits hmark => exact not_isDigit (.inr (.inr (.inr hmark)))

theorem SpellsFraction.endsDigits (h : SpellsFraction fraction w) (hrest : EndsDigits rest) :
    EndsDigits (w ++ rest) := by
  cases h with
  | absent => exact hrest
  | digits => exact not_isDigit (.inr (.inr (.inl rfl)))

/-- Neither an exponent nor what ends the number starts with a point. -/
theorem SpellsExponent.append_ne_point (h : SpellsExponent exponent w) (hrest : EndsNumber rest)
    {cs : List Char} : w ++ rest ≠ '.' :: cs := by
  cases h with
  | absent =>
    rintro rfl
    exact hrest.2.1 rfl
  | digits hmark =>
    intro heq
    cases heq
    exact absurd hmark (by decide)

/-- A sign is passed over before the digits of an exponent. -/
theorem scanExponent_sign {mark : Char} {sign ds : List Char} (hmark : isExponentMark mark = true)
    (hsign : (negative, sign) ∈ [(false, []), (false, ['+']), (true, ['-'])]) (hds : IsDigits ds)
    (hrest : EndsDigits rest) :
    scanExponent p (mark :: (sign ++ (ds ++ rest))) =
      (⟨numberValue { p with exponent := some (negative, ds) }, none⟩, rest) := by
  obtain ⟨htake, hdrop⟩ := span_isDigit hds.2 hrest
  have hsome : ds.isEmpty = false := List.isEmpty_eq_false_iff.2 hds.1
  simp only [List.mem_cons, Prod.mk.injEq, List.not_mem_nil, or_false] at hsign
  simp only [scanExponent, hmark, if_true]
  rcases hsign with ⟨rfl, rfl⟩ | ⟨rfl, rfl⟩ | ⟨rfl, rfl⟩
  · -- a digit is no sign
    obtain ⟨d, ds', rfl⟩ := List.exists_cons_of_ne_nil hds.1
    have hdigit : d.isDigit = true := hds.2 d List.mem_cons_self
    simp only [List.cons_append, List.nil_append] at htake hdrop ⊢
    split
    · next heq =>
      cases heq
      exact absurd hdigit (by decide)
    · next heq =>
      cases heq
      exact absurd hdigit (by decide)
    · simp only [htake, hdrop, hsome]
      rfl
  -- a sign is taken off, and the digits come behind it
  · simp only [List.cons_append, List.nil_append, htake, hdrop, hsome]
    rfl
  · simp only [List.cons_append, List.nil_append, htake, hdrop, hsome]
    rfl

/-- A written exponent is scanned as a whole. -/
theorem scanExponent_of_spellsExponent (h : SpellsExponent exponent w) (hp : p.exponent = none)
    (hrest : EndsNumber rest) :
    scanExponent p (w ++ rest) = (⟨numberValue { p with exponent := exponent }, none⟩, rest) := by
  cases h with
  | absent =>
    rw [← hp]
    cases rest with
    | nil => rfl
    | cons c cs => exact if_neg (by simp [hrest.2.2])
  | digits hmark hsign hds =>
    rw [List.cons_append, List.append_assoc]
    exact scanExponent_sign hmark hsign hds hrest.endsDigits

/-- A written fraction is scanned as a whole, and what is written behind it. -/
theorem scanFraction_of_spellsFraction (h : SpellsFraction fraction w)
    (h' : SpellsExponent exponent w') (hp : p.fraction = none ∧ p.exponent = none)
    (hrest : EndsNumber rest) :
    scanFraction p (w ++ (w' ++ rest)) =
      (⟨numberValue { p with fraction := fraction, exponent := exponent }, none⟩, rest) := by
  -- the exponent is scanned in the same way after a fraction and without one
  have hexponent : ∀ fraction, scanExponent { p with fraction := fraction } (w' ++ rest) =
      (⟨numberValue { p with fraction := fraction, exponent := exponent }, none⟩, rest) :=
    fun _ => scanExponent_of_spellsExponent h' hp.2 hrest
  cases h with
  | absent =>
    rw [← hexponent none, List.nil_append]
    unfold scanFraction
    split
    · next heq => exact absurd heq (h'.append_ne_point hrest)
    · rw [← hp.1]
  | digits hds =>
    obtain ⟨htake, hdrop⟩ := span_isDigit hds.2 (h'.endsDigits hrest)
    have hsome : List.isEmpty _ = false := List.isEmpty_eq_false_iff.2 hds.1
    rw [← hexponent, List.cons_append]
    simp only [scanFraction, htake, hdrop, hsome]
    rfl

/-- The integer part of a written number is scanned as a whole, and what is written behind it. -/
theorem scanDigits_of_spells (negative : Bool) (hinteger : IsDigits integer)
    (hzero : integer.head? = some '0' → integer = ['0']) (hfraction : SpellsFraction fraction w)
    (hexponent : SpellsExponent exponent w') (hrest : EndsNumber rest) :
    scanDigits negative (integer ++ (w ++ (w' ++ rest))) =
      (⟨numberValue ⟨negative, integer, fraction, exponent⟩, none⟩, rest) := by
  obtain ⟨htake, hdrop⟩ :=
    span_isDigit hinteger.2 (hfraction.endsDigits (hexponent.endsDigits hrest))
  simp only [scanDigits, htake, hdrop]
  split
  · exact absurd rfl hinteger.1
  · -- a zero in front of other digits
    exact absurd (hzero rfl) (by simp)
  · exact scanFraction_of_spellsFraction hfraction hexponent ⟨rfl, rfl⟩ hrest

/-- **A written number is scanned as its parts**, if nothing follows that could belong to it. -/
theorem scanNumber_of_spellsNumber (h : SpellsNumber p w) (hrest : EndsNumber rest) :
    scanNumber (w ++ rest) = (⟨numberValue p, none⟩, rest) := by
  obtain ⟨hinteger, hzero, hfraction, hexponent⟩ := h
  next negative integer _ _ w w' =>
  have hdigits := fun negative =>
    scanDigits_of_spells negative hinteger hzero hfraction hexponent hrest
  simp only [List.append_assoc]
  cases negative with
  | true => exact hdigits true
  | false =>
    rw [← hdigits false, if_neg (by decide), List.nil_append]
    obtain ⟨d, ds, rfl⟩ := List.exists_cons_of_ne_nil hinteger.1
    have hdigit : d.isDigit = true := hinteger.2 d List.mem_cons_self
    unfold scanNumber
    split
    · -- a digit is no sign
      next heq =>
      cases heq
      exact absurd hdigit (by decide)
    · rfl

/-- A written number starts with a sign or a digit. -/
theorem SpellsNumber.exists_eq_cons (h : SpellsNumber p w) :
    ∃ c cs, w = c :: cs ∧ (c = '-' ∨ c.isDigit = true) := by
  obtain ⟨hinteger, -, -, -⟩ := h
  next negative integer _ _ w w' =>
  cases negative with
  | true => exact ⟨_, _, rfl, .inl rfl⟩
  | false =>
    obtain ⟨d, ds, rfl⟩ := List.exists_cons_of_ne_nil hinteger.1
    exact ⟨d, _, rfl, .inr (hinteger.2 d List.mem_cons_self)⟩

/-- One of the ways to write an integer is how it is rendered. -/
theorem spellsNumber_renderNumber (n : Int) : SpellsNumber (.ofInt n) (renderNumber n) := by
  have hdigits : IsDigits (Nat.toDigits 10 n.natAbs) :=
    ⟨Nat.toDigits_ne_nil, fun c hc => Nat.isDigit_of_mem_toDigits (by decide) (by decide) hc⟩
  have hzero : (Nat.toDigits 10 n.natAbs).head? = some '0' → Nat.toDigits 10 n.natAbs = ['0'] := by
    intro hhead
    rcases Nat.eq_zero_or_pos n.natAbs with heq | hpos
    · rw [heq, Nat.toDigits_zero]
    · exact absurd hhead (head?_toDigits_ne hpos)
  have hspells : SpellsNumber (.ofInt n)
      ((if decide (n < 0) = true then ['-'] else []) ++ (Nat.toDigits 10 n.natAbs ++ ([] ++ []))) :=
    .parts hdigits hzero .absent .absent
  rw [renderNumber_eq]
  simpa only [List.append_nil, decide_eq_true_eq] using hspells

end ImportPlan.Json
