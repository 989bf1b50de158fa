import Mathlib
import ImportPlan.Text.Quoted

namespace ImportPlan.Text

/-!
# What quoting keeps

Quoting loses nothing, and a quoted text stays on its line. The escape of a character can be told
from every other one without looking at what follows it, so that no two texts have the same quoted
form.

* `isHexDigit` — the hexadecimal digits; `toDigits_sixteen_inj` — they determine the number.
* `shortEscape?` — the letters of the short escapes; `quoteChar_cases` — the ways to write a
  character.
* `quoteChar_append_inj` — what is written of a character ends by itself.
* `quote_injective` — texts are determined by their quoted forms.
* `newline_not_mem_quote` — no line ends inside of a quoted text.
-/

/-! ### Hexadecimal digits -/

/-- Whether a character is one of the hexadecimal digits that code points are written by. -/
def isHexDigit (c : Char) : Bool := c ∈ (List.range 16).map Nat.digitChar

/-- Numbers are written in hexadecimal digits. -/
theorem isHexDigit_of_mem_toDigits {n : Nat} {c : Char} (h : c ∈ Nat.toDigits 16 n) :
    isHexDigit c = true := by
  have hdigit : ∀ m < 16, isHexDigit (Nat.digitChar m) = true := by decide
  induction n using Nat.strongRecOn with
  | ind n ih =>
    rw [Nat.toDigits_eq_if (by decide)] at h
    split at h
    · next hlt =>
      rw [List.mem_singleton] at h
      rw [h]
      exact hdigit n hlt
    · next hle =>
      rcases List.mem_append.1 h with hhigh | hlow
      · exact ih (n / 16) (by omega) hhigh
      · rw [List.mem_singleton] at hlow
        rw [hlow]
        exact hdigit _ (Nat.mod_lt n (by decide))

/-- The last digit and the digits before it determine the number. -/
theorem toDigits_sixteen_inj {m n : Nat} (h : Nat.toDigits 16 m = Nat.toDigits 16 n) : m = n := by
  have hdigit : ∀ i < 16, ∀ j < 16, Nat.digitChar i = Nat.digitChar j → i = j := by decide
  induction m using Nat.strongRecOn generalizing n with
  | ind m ih =>
    rw [Nat.toDigits_eq_if (by decide), Nat.toDigits_eq_if (n := n) (by decide)] at h
    split at h <;> split at h
    · next hm hn => exact hdigit m hm n hn (List.singleton_inj.1 h)
    · -- one digit is not more than one
      exact absurd (List.append_eq_singleton_iff.1 h.symm) (by simp [Nat.toDigits_ne_nil])
    · exact absurd (List.append_eq_singleton_iff.1 h) (by simp [Nat.toDigits_ne_nil])
    · obtain ⟨hhigh, hlow⟩ := List.append_inj' h rfl
      have hdiv : m / 16 = n / 16 := ih (m / 16) (by omega) hhigh
      have hmod : m % 16 = n % 16 :=
        hdigit _ (Nat.mod_lt m (by decide)) _ (Nat.mod_lt n (by decide)) (List.singleton_inj.1 hlow)
      omega

/-! ### Ways to write a character -/

/-- The letter of a character's short escape. -/
def shortEscape? : Char → Option Char
  | '"' => some '"'
  | '\\' => some '\\'
  | '\x00' => some '0'
  | '\t' => some 't'
  | '\n' => some 'n'
  | '\r' => some 'r'
  | _ => none

/-- **The ways to write a character**: by its short escape, as it is, or by its code point. -/
theorem quoteChar_cases (c : Char) :
    (∃ e, shortEscape? c = some e ∧ e ≠ 'u' ∧ e ≠ '\n' ∧ quoteChar c = ['\\', e]) ∨
      (c ≠ '\\' ∧ c ≠ '\n' ∧ quoteChar c = [c]) ∨ quoteChar c = codePointEscape c := by
  unfold quoteChar
  split
  · exact .inl ⟨'"', rfl, by decide, by decide, rfl⟩
  · exact .inl ⟨'\\', rfl, by decide, by decide, rfl⟩
  · exact .inl ⟨'0', rfl, by decide, by decide, rfl⟩
  · exact .inl ⟨'t', rfl, by decide, by decide, rfl⟩
  · exact .inl ⟨'n', rfl, by decide, by decide, rfl⟩
  · exact .inl ⟨'r', rfl, by decide, by decide, rfl⟩
  · next hbackslash _ _ hnewline _ =>
    split
    · exact .inr (.inl ⟨hbackslash, hnewline, rfl⟩)
    · exact .inr (.inr rfl)

/-- Different characters have different short escapes. -/
theorem shortEscape?_inj {c d e : Char} (hc : shortEscape? c = some e)
    (hd : shortEscape? d = some e) : c = d := by
  unfold shortEscape? at hc hd
  split at hc <;> cases hc <;> split at hd <;> simp_all

/-- What is written of a character is not empty. -/
theorem quoteChar_ne_nil (c : Char) : quoteChar c ≠ [] := by
  rcases quoteChar_cases c with ⟨e, -, -, -, heq⟩ | ⟨-, -, heq⟩ | heq
  · rw [heq]
    exact List.cons_ne_nil _ _
  · rw [heq]
    exact List.cons_ne_nil _ _
  · rw [heq]
    exact List.cons_ne_nil _ _

/-- Digits end where a brace follows. -/
theorem codePointEscape_append_inj {c d : Char} {r r' : List Char}
    (h : codePointEscape c ++ r = codePointEscape d ++ r') : c = d ∧ r = r' := by
  have hbrace : ∀ {n : Nat} {x : Char}, x ∈ Nat.toDigits 16 n → (x != '\x7d') = true := by
    intro n x hx
    by_contra hnot
    have heq : x = '\x7d' := by simpa using hnot
    rw [heq] at hx
    exact absurd (isHexDigit_of_mem_toDigits hx) (by decide)
  have hdigits :
      Nat.toDigits 16 c.toNat ++ '\x7d' :: r = Nat.toDigits 16 d.toNat ++ '\x7d' :: r' := by
    simpa [codePointEscape] using h
  have htake := congrArg (List.takeWhile (· != '\x7d')) hdigits
  rw [List.takeWhile_append_of_pos fun x hx => hbrace hx,
    List.takeWhile_append_of_pos fun x hx => hbrace hx] at htake
  have hnum : c.toNat = d.toNat := toDigits_sixteen_inj (by simpa using htake)
  obtain rfl : c = d := Char.toNat_inj.1 hnum
  exact ⟨rfl, by simpa using hdigits⟩

/-- **What is written of a character ends by itself**, whatever follows it. -/
theorem quoteChar_append_inj {c d : Char} {r r' : List Char}
    (h : quoteChar c ++ r = quoteChar d ++ r') : c = d ∧ r = r' := by
  rcases quoteChar_cases c with ⟨e, hc, hu, -, heq⟩ | ⟨hc, -, heq⟩ | heq <;>
    rcases quoteChar_cases d with ⟨e', hd, hu', -, heq'⟩ | ⟨hd, -, heq'⟩ | heq' <;>
    rw [heq, heq'] at h
  · -- the letter tells the short escapes apart
    obtain ⟨hletter, hrest⟩ := List.cons.inj (List.cons.inj h).2
    exact ⟨shortEscape?_inj hc (hletter ▸ hd), hrest⟩
  · exact absurd (List.cons.inj h).1.symm hd
  · -- no short escape has the letter of code points
    exact absurd (List.cons.inj (List.cons.inj h).2).1 hu
  · exact absurd (List.cons.inj h).1 hc
  · exact List.cons.inj h
  · exact absurd (List.cons.inj h).1 hc
  · exact absurd (List.cons.inj (List.cons.inj h).2).1.symm hu'
  · exact absurd (List.cons.inj h).1.symm hd
  · exact codePointEscape_append_inj h

/-! ### Quoted texts -/

/-- Characters are determined by what is written of them. -/
theorem flatMap_quoteChar_injective {cs ds : List Char}
    (h : cs.flatMap quoteChar = ds.flatMap quoteChar) : cs = ds := by
  induction cs generalizing ds with
  | nil =>
    cases ds with
    | nil => rfl
    | cons d ds =>
      rw [List.flatMap_nil, List.flatMap_cons] at h
      exact absurd (List.append_eq_nil_iff.1 h.symm).1 (quoteChar_ne_nil d)
  | cons c cs ih =>
    cases ds with
    | nil =>
      rw [List.flatMap_nil, List.flatMap_cons] at h
      exact absurd (List.append_eq_nil_iff.1 h).1 (quoteChar_ne_nil c)
    | cons d ds =>
      rw [List.flatMap_cons, List.flatMap_cons] at h
      obtain ⟨rfl, hrest⟩ := quoteChar_append_inj h
      rw [ih hrest]

/-- The characters of a quoted text. -/
theorem toList_quote (s : String) :
    (quote s).toList = '"' :: (s.toList.flatMap quoteChar ++ ['"']) := by
  rw [quote, String.toList_ofList, List.cons_append]

/-- **Quoting loses nothing.** -/
theorem quote_injective {s t : String} (h : quote s = quote t) : s = t := by
  have hchars := congrArg String.toList h
  rw [toList_quote, toList_quote, List.cons.injEq] at hchars
  exact String.toList_inj.1 (flatMap_quoteChar_injective (List.append_cancel_right hchars.2))

/-- No line ends inside of a quoted text. -/
theorem newline_not_mem_quote (s : String) : '\n' ∉ (quote s).toList := by
  have hchar : ∀ c, '\n' ∉ quoteChar c := by
    intro c hmem
    rcases quoteChar_cases c with ⟨e, -, -, hnewline, heq⟩ | ⟨-, hnewline, heq⟩ | heq <;>
      rw [heq] at hmem
    · exact hnewline (by simpa using hmem : '\n' = e).symm
    · exact hnewline (List.mem_singleton.1 hmem).symm
    · have hdigit : '\n' ∈ Nat.toDigits 16 c.toNat := by simpa [codePointEscape] using hmem
      exact absurd (isHexDigit_of_mem_toDigits hdigit) (by decide)
  simp [toList_quote, hchar]

end ImportPlan.Text
