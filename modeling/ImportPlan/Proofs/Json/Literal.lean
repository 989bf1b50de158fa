import Mathlib
import ImportPlan.Json.Basic
import ImportPlan.Json.Token

namespace ImportPlan.Json

/-!
# Written literals

Scanning undoes writing: a text literal gives back its text, whichever characters are escaped in it.
The digits of a number of 64 bits have its value.

* `SpellsChar`, `SpellsText` — the ways to write a character and a text.
* `scanTextFrom_of_spellsChar`, `scanText_of_spellsText` — all of them are scanned as what they
  stand for.
* `spellsText_renderText` — a text is rendered in one of these ways.
* `renderNumber_eq` — a number is written as an optional sign and its digits.
* `EndsNumber` — the texts that may come after a number.
* `numberValue_ofInt` — a written number has the value that was written.
-/

/-! ### Texts -/

/-- Characters, and no half of a surrogate pair, have been scanned. -/
def Scanned.ofChars (cs : List Char) : Scanned := ⟨.ok cs, none⟩

/-- A one-letter escape is scanned as its character. -/
theorem scanTextFrom_escape (s : Scanned) {c e : Char} (h : escapedChar? c = some e)
    (rest : List Char) : scanTextFrom s ('\\' :: c :: rest) = scanTextFrom (s.push e) rest := by
  have hu : c ≠ 'u' := by
    rintro rfl
    cases h
  rw [scanTextFrom.eq_def]
  split <;> grind

/-- An escape of four digits is scanned as its code unit. -/
theorem scanTextFrom_unit (s : Scanned) {a b c d : Char} {n : Nat}
    (h : quadValue? a b c d = some n) (rest : List Char) :
    scanTextFrom s ('\\' :: 'u' :: a :: b :: c :: d :: rest) =
      scanTextFrom (s.pushUnit n) rest := by
  rw [scanTextFrom, h]

/-- All other characters but controls are scanned as they are. -/
theorem scanTextFrom_plain (s : Scanned) {c : Char} (hquote : c ≠ '"') (hbackslash : c ≠ '\\')
    (hcontrol : ¬ c.toNat < 0x20) (rest : List Char) :
    scanTextFrom s (c :: rest) = scanTextFrom (s.push c) rest := by
  rw [scanTextFrom.eq_def]
  split <;> simp_all

/-- The four digits that controls are written by have their value. -/
theorem exists_hexQuad_eq {n : Nat} (h : n < 0x20) :
    ∃ a b c d, hexQuad n = [a, b, c, d] ∧ quadValue? a b c d = some n := by
  have hall : ∀ n < 0x20,
      hexQuad n = ['0', '0', Nat.digitChar (n / 16), Nat.digitChar (n % 16)] ∧
        quadValue? '0' '0' (Nat.digitChar (n / 16)) (Nat.digitChar (n % 16)) = some n := by
    decide
  exact ⟨_, _, _, _, hall n h⟩

/-- The ways to write a character in a text literal. -/
inductive SpellsChar : Char → List Char → Prop
  /-- As it is, if that neither ends the literal nor starts an escape. -/
  | plain {c : Char} (hquote : c ≠ '"') (hbackslash : c ≠ '\\') (hcontrol : ¬ c.toNat < 0x20) :
    SpellsChar c [c]
  /-- By an escape of one letter. -/
  | letter {c e : Char} (h : escapedChar? e = some c) : SpellsChar c ['\\', e]
  /-- By the four digits of its code point. -/
  | unit {ch a b c d : Char} (h : quadValue? a b c d = some ch.toNat) :
    SpellsChar ch ['\\', 'u', a, b, c, d]
  /-- By the digits of a surrogate pair. -/
  | pair {a b c d a' b' c' d' : Char} {high low : Nat} (h : quadValue? a b c d = some high)
    (h' : quadValue? a' b' c' d' = some low) (hhigh : isHighHalf high = true)
    (hlow : isLowHalf low = true) :
    SpellsChar (pairChar high low) ['\\', 'u', a, b, c, d, '\\', 'u', a', b', c', d']

/-- A character is no half of a surrogate pair. -/
theorem pushUnit_toNat (scanned : List Char) (c : Char) :
    (Scanned.ofChars scanned).pushUnit c.toNat = .ofChars (c :: scanned) := by
  have hvalid : c.toNat < 0xd800 ∨ 0xdfff < c.toNat ∧ c.toNat < 0x110000 := c.valid
  have hlow : isLowHalf c.toNat = false := by
    simp [isLowHalf]
    omega
  have hhigh : isHighHalf c.toNat = false := by
    simp [isHighHalf]
    omega
  simp only [Scanned.pushUnit, hlow, hhigh, Char.ofNat_toNat]
  rfl

/-- The halves of a pair are put together. -/
theorem pushUnit_pair (scanned : List Char) {high low : Nat} (hhigh : isHighHalf high = true)
    (hlow : isLowHalf low = true) :
    ((Scanned.ofChars scanned).pushUnit high).pushUnit low =
      .ofChars (pairChar high low :: scanned) := by
  have hnot : isLowHalf high = false := by
    simp [isHighHalf, isLowHalf] at hhigh ⊢
    omega
  simp only [Scanned.pushUnit, hnot, hhigh, hlow]
  rfl

/-- A character is scanned as itself, whichever way it is written. -/
theorem scanTextFrom_of_spellsChar (scanned : List Char) {c : Char} {w : List Char}
    (h : SpellsChar c w) (rest : List Char) :
    scanTextFrom (.ofChars scanned) (w ++ rest) = scanTextFrom (.ofChars (c :: scanned)) rest := by
  cases h with
  | plain hquote hbackslash hcontrol => exact scanTextFrom_plain _ hquote hbackslash hcontrol rest
  | letter h => exact scanTextFrom_escape _ h rest
  | unit h => exact (scanTextFrom_unit _ h rest).trans (by rw [pushUnit_toNat])
  | pair h h' hhigh hlow =>
    refine (scanTextFrom_unit _ h _).trans ?_
    exact (scanTextFrom_unit _ h' rest).trans (by rw [pushUnit_pair scanned hhigh hlow])

/-- The text is written so, each character in one of the ways to write it. -/
def SpellsText (s : String) (w : List Char) : Prop :=
  ∃ words, List.Forall₂ SpellsChar s.toList words ∧ w = '"' :: words.flatten ++ ['"']

/-- Characters are scanned up to the closing quote. -/
theorem scanTextFrom_flatten {cs : List Char} {words : List (List Char)}
    (h : List.Forall₂ SpellsChar cs words) (scanned rest : List Char) :
    scanTextFrom (.ofChars scanned) (words.flatten ++ '"' :: rest) =
      (.ofValue (String.ofList (scanned.reverse ++ cs)), rest) := by
  induction h generalizing scanned with
  | nil =>
    rw [List.append_nil]
    rfl
  | cons hchar hrest ih =>
    rw [List.flatten_cons, List.append_assoc, scanTextFrom_of_spellsChar _ hchar, ih,
      List.reverse_cons, List.append_assoc]
    rfl

/-- **A text is scanned as itself**, whichever way it is written. -/
theorem scanText_of_spellsText {s : String} {w : List Char} (h : SpellsText s w)
    (rest : List Char) : ∃ cs, w ++ rest = '"' :: cs ∧ scanText cs = (.ofValue s, rest) := by
  obtain ⟨words, hwords, rfl⟩ := h
  refine ⟨words.flatten ++ '"' :: rest, ?_, ?_⟩
  · rw [List.cons_append, List.cons_append, List.append_assoc]
    rfl
  · rw [scanText]
    refine (scanTextFrom_flatten hwords [] rest).trans ?_
    rw [List.reverse_nil, List.nil_append, String.ofList_toList]

/-- One of the ways to write a character is how it is rendered. -/
theorem spellsChar_escapeChar (c : Char) : SpellsChar c (escapeChar c) := by
  unfold escapeChar
  split
  · exact .letter rfl
  · exact .letter rfl
  · exact .letter rfl
  · exact .letter rfl
  · exact .letter rfl
  · exact .letter rfl
  · exact .letter rfl
  · next hquote hbackslash _ _ _ _ _ =>
    by_cases hcontrol : c.toNat < 0x20
    · obtain ⟨a, b, c', d, hquad, hvalue⟩ := exists_hexQuad_eq hcontrol
      rw [if_pos hcontrol, hquad]
      exact .unit hvalue
    · rw [if_neg hcontrol]
      exact .plain hquote hbackslash hcontrol

/-- One of the ways to write a text is how it is rendered. -/
theorem spellsText_renderText (s : String) : SpellsText s (renderText s) := by
  refine ⟨s.toList.map escapeChar, ?_, ?_⟩
  · exact List.forall₂_map_right_iff.2 (List.forall₂_same.2 fun c _ => spellsChar_escapeChar c)
  · rw [renderText, List.flatMap_def]

/-! ### Numbers -/

/-- A number is written as an optional sign and its digits. -/
theorem renderNumber_eq (n : Int) :
    renderNumber n = (if n < 0 then ['-'] else []) ++ Nat.toDigits 10 n.natAbs := by
  cases n with
  | ofNat m =>
    have hnonneg : ¬ Int.ofNat m < 0 := Int.not_lt.2 (Int.natCast_nonneg m)
    rw [if_neg hnonneg]
    show (toString m).toList = _
    rw [Nat.toString_eq_ofList_toDigits, String.toList_ofList]
    rfl
  | negSucc m =>
    rw [if_pos (Int.negSucc_lt_zero m)]
    show ("-" ++ toString (m + 1)).toList = _
    rw [Nat.toString_eq_ofList_toDigits, String.toList_append, String.toList_ofList,
      String.toList_ofList]
    rfl

/-- The digits of a positive number do not start with a zero. -/
theorem head?_toDigits_ne {n : Nat} (h : 0 < n) : (Nat.toDigits 10 n).head? ≠ some '0' := by
  induction n using Nat.strongRecOn with
  | ind n ih =>
    rw [Nat.toDigits_eq_if (by decide)]
    split
    · interval_cases n <;> decide
    · next hle =>
      have hpos : 0 < n / 10 := Nat.div_pos (Nat.le_of_not_lt hle) (by decide)
      rw [List.head?_append_of_ne_nil _ Nat.toDigits_ne_nil]
      exact ih _ (Nat.div_lt_self h (by decide)) hpos

/-- The text that may come after a number: it goes on with nothing that a number could. -/
def EndsNumber : List Char → Prop
  | [] => True
  | c :: _ => c.isDigit = false ∧ c ≠ '.' ∧ isExponentMark c = false

/-- The parts of a written number. -/
def NumberParts.ofInt (n : Int) : NumberParts :=
  ⟨decide (n < 0), Nat.toDigits 10 n.natAbs, none, none⟩

/-- Digits have the value that was written. -/
theorem digitsValue_toDigits (n : Nat) : digitsValue (Nat.toDigits 10 n) = n := by
  have h := Nat.ofDigitChars_ten_toDigits (n := n)
  rw [Nat.ofDigitChars_eq_foldl] at h
  rw [digitsValue]
  simpa [digitValue, Nat.mul_comm] using h

/-- **A written number of 64 bits has the value that was written.** -/
theorem numberValue_ofInt {n : Int} (hlow : -9223372036854775808 ≤ n)
    (hhigh : n ≤ 9223372036854775807) : numberValue (.ofInt n) = .ok (.integer n) := by
  have hvalue := digitsValue_toDigits n.natAbs
  by_cases h : n < 0
  · have hpos : 0 < n.natAbs := by omega
    have hle : n.natAbs ≤ wordSize / 2 := by
      rw [wordSize]
      omega
    simp [numberValue, NumberParts.ofInt, hvalue, h, hpos, hle, abs_of_neg h]
  · have habs : (n.natAbs : Int) = n := by omega
    have hlt : n.natAbs < wordSize := by
      rw [wordSize]
      omega
    simp [numberValue, NumberParts.ofInt, hvalue, h, hlt, habs]

end ImportPlan.Json
