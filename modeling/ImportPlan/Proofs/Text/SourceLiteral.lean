import Mathlib
import ImportPlan.Json.Text
import ImportPlan.Proofs.Path.Verbatim
import ImportPlan.Proofs.Text.ByteOrder
import ImportPlan.Proofs.Text.Quoting

namespace ImportPlan.Text

open Json (hexValue?)

/-!
# Quoted texts as string literals of Go

Import blocks are Go source, where the path of an import is an interpreted string literal. Such a
literal denotes bytes. Quoting writes most characters in a way that is in the grammar of literals
and denotes them there, but its escapes of NUL and of code points are not in the grammar.

* `SpellsBytes` — the parts of a literal with the bytes that they stand for.
* `Denotes` — a text is a literal, and the literal denotes these bytes.
* `IsPortable` — the characters that quoting writes as a literal does.
* `SpellsBytes.of_isPortable`, `SpellsBytes.of_zero`, `SpellsBytes.not_codePointEscape` — the part
  of a literal where a character is written, NUL is, and a code point is.
* `length_le_of_spellsBytes` — what is written denotes fewer bytes, if a character is not portable.
* `denotes_quote_iff` — a quoted text is a literal for the text just if all characters are portable.
-/

/-! ### The grammar of literals -/

/-- The byte of an escape by a letter. -/
def escapedByte? : Char → Option UInt8
  | 'a' => some 0x07
  | 'b' => some 0x08
  | 't' => some 0x09
  | 'n' => some 0x0a
  | 'v' => some 0x0b
  | 'f' => some 0x0c
  | 'r' => some 0x0d
  | '"' => some 0x22
  | '\\' => some 0x5c
  | _ => none

/-- The value of a digit in a base up to sixteen. -/
def digitIn? (base : Nat) (c : Char) : Option Nat := (hexValue? c).filter (· < base)

/-- The value of digits in a base up to sixteen. -/
def valueIn? (base : Nat) (digits : List Char) : Option Nat :=
  digits.foldlM (fun n c => (digitIn? base c).map (n * base + ·)) 0

/-- The parts of a literal with the bytes that they stand for. -/
inductive SpellsBytes : List UInt8 → List Char → Prop
  /-- A character that neither ends the literal or the line nor starts an escape. -/
  | plain {c : Char} (hquote : c ≠ '"') (hbackslash : c ≠ '\\') (hnewline : c ≠ '\n') :
    SpellsBytes (String.utf8EncodeChar c) [c]
  /-- An escape by a letter. -/
  | letter {e : Char} {b : UInt8} (h : escapedByte? e = some b) : SpellsBytes [b] ['\\', e]
  /-- A byte by three octal digits. -/
  | octal {x y z : Char} {n : Nat} (h : valueIn? 8 [x, y, z] = some n) (hn : n < 256) :
    SpellsBytes [UInt8.ofNat n] ['\\', x, y, z]
  /-- A byte by two hexadecimal digits. -/
  | hex {x y : Char} {n : Nat} (h : valueIn? 16 [x, y] = some n) :
    SpellsBytes [UInt8.ofNat n] ['\\', 'x', x, y]
  /-- A character by four hexadecimal digits. -/
  | short {c : Char} {digits : List Char} (hlength : digits.length = 4)
    (h : valueIn? 16 digits = some c.toNat) :
    SpellsBytes (String.utf8EncodeChar c) ('\\' :: 'u' :: digits)
  /-- A character by eight hexadecimal digits. -/
  | long {c : Char} {digits : List Char} (hlength : digits.length = 8)
    (h : valueIn? 16 digits = some c.toNat) :
    SpellsBytes (String.utf8EncodeChar c) ('\\' :: 'U' :: digits)

/-- The text is a literal, and the literal denotes these bytes. -/
def Denotes (literal : String) (bytes : List UInt8) : Prop :=
  ∃ parts words, List.Forall₂ SpellsBytes parts words ∧ bytes = parts.flatten ∧
    literal.toList = '"' :: (words.flatten ++ ['"'])

/-- Only digits have a value. -/
theorem isSome_digitIn?_of_valueIn? {base n : Nat} {digits : List Char}
    (h : valueIn? base digits = some n) : ∀ c ∈ digits, (digitIn? base c).isSome := by
  rw [valueIn?] at h
  generalize 0 = m at h
  induction digits generalizing m with
  | nil => exact fun c hc => absurd hc List.not_mem_nil
  | cons d ds ih =>
    rw [List.foldlM_cons] at h
    rw [List.forall_mem_cons]
    cases hdigit : digitIn? base d with
    | none =>
      rw [hdigit] at h
      cases h
    | some value =>
      rw [hdigit] at h
      exact ⟨rfl, ih _ h⟩

/-! ### Characters that are written as in a literal -/

/-- Characters that quoting writes as a literal does: those that are shown as they are and those
whose escape by a letter a literal has too. -/
def IsPortable (c : Char) : Prop := standsAlone c = true ∨ c = '\t' ∨ c = '\n' ∨ c = '\r'

/-- The ASCII characters from the space to the tilde are portable. -/
theorem isPortable_of_ascii {c : Char} (hlow : 0x20 ≤ c.toNat) (hhigh : c.toNat ≤ 0x7e) :
    IsPortable c :=
  .inl (standsAlone_of_ascii hlow hhigh)

/-- No combining character is portable. -/
theorem not_isPortable_of_isCombining {c : Char} (h : isCombining c = true) : ¬ IsPortable c := by
  have hstart : ∀ r ∈ combiningRanges, 0x300 ≤ r.1 := by decide +kernel
  obtain ⟨r, hr, hin⟩ := List.any_eq_true.1 h
  have hlarge : 0x300 ≤ c.toNat := by
    have := hstart r hr
    simp only [Bool.and_eq_true, decide_eq_true_eq] at hin
    omega
  rintro (hstands | rfl | rfl | rfl)
  · simp [standsAlone, h] at hstands
  all_goals exact absurd hlarge (by decide)

/-- What is written of a portable character: the character, or an escape by a letter that a literal
has too. -/
theorem IsPortable.quoteChar_eq {c : Char} (h : IsPortable c) :
    (c ≠ '"' ∧ c ≠ '\\' ∧ c ≠ '\n' ∧ quoteChar c = [c]) ∨
      ∃ e b, escapedByte? e = some b ∧ String.utf8EncodeChar c = [b] ∧ quoteChar c = ['\\', e] := by
  unfold quoteChar
  split
  · exact .inr ⟨'"', _, rfl, rfl, rfl⟩
  · exact .inr ⟨'\\', _, rfl, rfl, rfl⟩
  · rcases h with hstands | htab | hnewline | hreturn
    · exact absurd hstands (by decide)
    · exact absurd htab (by decide)
    · exact absurd hnewline (by decide)
    · exact absurd hreturn (by decide)
  · exact .inr ⟨'t', _, rfl, rfl, rfl⟩
  · exact .inr ⟨'n', _, rfl, rfl, rfl⟩
  · exact .inr ⟨'r', _, rfl, rfl, rfl⟩
  · next hquote hbackslash _ htab hnewline hreturn =>
    have hstands : standsAlone c = true := by
      rcases h with hstands | rfl | rfl | rfl
      · exact hstands
      · exact absurd rfl htab
      · exact absurd rfl hnewline
      · exact absurd rfl hreturn
    exact .inl ⟨hquote, hbackslash, hnewline, if_pos hstands⟩

/-- A portable character is written as a part of a literal that stands for it. -/
theorem IsPortable.spellsBytes {c : Char} (h : IsPortable c) :
    SpellsBytes (String.utf8EncodeChar c) (quoteChar c) := by
  rcases h.quoteChar_eq with ⟨hquote, hbackslash, hnewline, heq⟩ | ⟨e, b, he, hb, heq⟩
  · rw [heq]
    exact .plain hquote hbackslash hnewline
  · rw [heq, hb]
    exact .letter he

/-- What is written of a character that is not portable: the escape of NUL, or the one by its code
point. -/
theorem quoteChar_of_not_isPortable {c : Char} (h : ¬ IsPortable c) :
    quoteChar c = ['\\', '0'] ∨ quoteChar c = codePointEscape c := by
  have hstands : ¬ standsAlone c = true := fun hs => h (.inl hs)
  unfold quoteChar
  split
  · exact absurd (standsAlone_of_ascii (by decide) (by decide)) hstands
  · exact absurd (standsAlone_of_ascii (by decide) (by decide)) hstands
  · exact .inl rfl
  · exact absurd (.inr (.inl rfl)) h
  · exact absurd (.inr (.inr (.inl rfl))) h
  · exact absurd (.inr (.inr (.inr rfl))) h
  · exact .inr (if_neg hstands)

/-! ### Where a part of a literal ends -/

variable {bytes : List UInt8} {word rest after : List Char}

/-- No part is empty. -/
theorem SpellsBytes.ne_nil (h : SpellsBytes bytes word) : word ≠ [] := by
  cases h <;> exact List.cons_ne_nil _ _

/-- A character that starts no escape is a part by itself. -/
theorem SpellsBytes.of_plain {c : Char} (hc : c ≠ '\\') (h : SpellsBytes bytes word)
    (heq : word ++ rest = c :: after) : bytes = String.utf8EncodeChar c ∧ rest = after := by
  cases h with
  | plain =>
    obtain ⟨rfl, hrest⟩ := List.cons.inj heq
    exact ⟨rfl, hrest⟩
  | _ => exact absurd (List.cons.inj heq).1.symm hc

/-- A backslash and the letter of an escape are a part. -/
theorem SpellsBytes.of_letter {e : Char} {b : UInt8} (he : escapedByte? e = some b)
    (h : SpellsBytes bytes word) (heq : word ++ rest = '\\' :: e :: after) :
    bytes = [b] ∧ rest = after := by
  have hoctal : digitIn? 8 e = none := by
    unfold escapedByte? at he
    split at he <;> first | rfl | cases he
  cases h with
  | plain _ hbackslash => exact absurd (List.cons.inj heq).1 hbackslash
  | letter he' =>
    obtain ⟨rfl, hrest⟩ := List.cons.inj (List.cons.inj heq).2
    rw [he, Option.some.injEq] at he'
    exact ⟨by rw [he'], hrest⟩
  | octal hdigits =>
    obtain ⟨rfl, -⟩ := List.cons.inj (List.cons.inj heq).2
    have hsome := isSome_digitIn?_of_valueIn? hdigits _ List.mem_cons_self
    rw [hoctal] at hsome
    cases hsome
  | _ =>
    -- no letter of an escape announces digits
    obtain ⟨rfl, -⟩ := List.cons.inj (List.cons.inj heq).2
    cases he

/-- A backslash and a zero start three octal digits. -/
theorem SpellsBytes.of_zero (h : SpellsBytes bytes word)
    (heq : word ++ rest = '\\' :: '0' :: after) :
    ∃ b y z, bytes = [b] ∧ after = y :: z :: rest ∧ y ≠ '\\' ∧ z ≠ '\\' := by
  cases h with
  | plain _ hbackslash => exact absurd (List.cons.inj heq).1 hbackslash
  | @octal x y z n hdigits =>
    obtain ⟨rfl, hafter⟩ := List.cons.inj (List.cons.inj heq).2
    have hbackslash : ∀ d ∈ ['0', y, z], d ≠ '\\' := by
      rintro d hd rfl
      exact absurd (isSome_digitIn?_of_valueIn? hdigits _ hd) (by decide)
    exact ⟨_, y, z, rfl, hafter.symm, hbackslash y (by simp), hbackslash z (by simp)⟩
  | letter he =>
    obtain ⟨rfl, -⟩ := List.cons.inj (List.cons.inj heq).2
    cases he
  | _ => exact absurd (List.cons.inj (List.cons.inj heq).2).1 (by decide)

/-- No part starts with an escape by code point. -/
theorem SpellsBytes.not_codePointEscape {c : Char} (h : SpellsBytes bytes word) :
    word ++ rest ≠ codePointEscape c ++ after := by
  intro heq
  have hcode : codePointEscape c ++ after =
      '\\' :: 'u' :: '\x7b' :: (Nat.toDigits 16 c.toNat ++ '\x7d' :: after) := by
    simp [codePointEscape]
  rw [hcode] at heq
  cases h with
  | plain _ hbackslash => exact absurd (List.cons.inj heq).1 hbackslash
  | letter he =>
    obtain ⟨rfl, -⟩ := List.cons.inj (List.cons.inj heq).2
    cases he
  | octal hdigits =>
    obtain ⟨rfl, -⟩ := List.cons.inj (List.cons.inj heq).2
    exact absurd (isSome_digitIn?_of_valueIn? hdigits _ List.mem_cons_self) (by decide)
  | @short c digits hlength hdigits =>
    -- a brace is no digit
    obtain ⟨d, ds, rfl⟩ := List.exists_cons_of_length_pos (hlength ▸ by decide : 0 < digits.length)
    obtain ⟨rfl, -⟩ := List.cons.inj (List.cons.inj (List.cons.inj heq).2).2
    exact absurd (isSome_digitIn?_of_valueIn? hdigits _ List.mem_cons_self) (by decide)
  | _ => exact absurd (List.cons.inj (List.cons.inj heq).2).1 (by decide)

/-- Where a portable character is written, a literal has the part for it. -/
theorem SpellsBytes.of_isPortable {c : Char} (hc : IsPortable c) (h : SpellsBytes bytes word)
    (heq : word ++ rest = quoteChar c ++ after) :
    bytes = String.utf8EncodeChar c ∧ rest = after := by
  rcases hc.quoteChar_eq with ⟨-, hbackslash, -, hchar⟩ | ⟨e, b, he, hb, hchar⟩
  · rw [hchar] at heq
    exact h.of_plain hbackslash heq
  · rw [hchar] at heq
    rw [hb]
    exact h.of_letter he heq

/-! ### Quoted texts -/

/-- What is written of characters starts with what is written of the first one; only an escape
starts with a backslash. -/
theorem eq_cons_of_flatMap_quoteChar {cs : List Char} {c : Char} (hc : c ≠ '\\')
    (h : c :: rest = cs.flatMap quoteChar) : ∃ ds, cs = c :: ds ∧ rest = ds.flatMap quoteChar := by
  cases cs with
  | nil => cases h
  | cons d ds =>
    rw [List.flatMap_cons] at h
    rcases quoteChar_cases d with ⟨e, -, -, -, heq⟩ | ⟨-, -, heq⟩ | heq <;> rw [heq] at h
    · exact absurd (List.cons.inj h).1 hc
    · obtain ⟨rfl, hrest⟩ := List.cons.inj h
      exact ⟨ds, rfl, hrest⟩
    · exact absurd (List.cons.inj h).1 hc

/-- A character takes at least one byte. -/
theorem utf8EncodeChar_length_pos (c : Char) : 0 < (String.utf8EncodeChar c).length :=
  List.length_pos_of_ne_nil String.utf8EncodeChar_ne_nil

/-- **What is written of characters denotes no more bytes than they have**, and fewer if one of them
is not portable. -/
theorem length_le_of_spellsBytes {parts : List (List UInt8)} {words : List (List Char)}
    (h : List.Forall₂ SpellsBytes parts words) {cs : List Char}
    (heq : words.flatten = cs.flatMap quoteChar) :
    parts.flatten.length ≤ (cs.flatMap String.utf8EncodeChar).length ∧
      (parts.flatten.length = (cs.flatMap String.utf8EncodeChar).length →
        ∀ c ∈ cs, IsPortable c) := by
  induction h generalizing cs with
  | nil =>
    cases cs with
    | nil => exact ⟨le_rfl, fun _ c hc => absurd hc List.not_mem_nil⟩
    | cons c cs =>
      rw [List.flatMap_cons] at heq
      exact absurd (List.append_eq_nil_iff.1 heq.symm).1 (quoteChar_ne_nil c)
  | @cons bytes word parts words hpart hparts ih =>
    rw [List.flatten_cons] at heq
    rw [List.flatten_cons, List.length_append]
    cases cs with
    | nil => exact absurd (List.append_eq_nil_iff.1 heq).1 hpart.ne_nil
    | cons c cs =>
      rw [List.flatMap_cons] at heq
      rw [List.flatMap_cons, List.length_append]
      by_cases hc : IsPortable c
      · obtain ⟨rfl, hrest⟩ := hpart.of_isPortable hc heq
        obtain ⟨hle, hall⟩ := ih hrest
        refine ⟨by omega, fun hlength => ?_⟩
        exact List.forall_mem_cons.2 ⟨hc, hall (by omega)⟩
      · have hlt : bytes.length + parts.flatten.length <
            (String.utf8EncodeChar c).length + (cs.flatMap String.utf8EncodeChar).length := by
          rcases quoteChar_of_not_isPortable hc with hzero | hcode
          · -- the two characters behind NUL are taken for its digits
            rw [hzero] at heq
            obtain ⟨b, y, z, rfl, hafter, hy, hz⟩ := hpart.of_zero heq
            obtain ⟨ds, rfl, hafter'⟩ := eq_cons_of_flatMap_quoteChar hy hafter.symm
            obtain ⟨ds', rfl, hrest⟩ := eq_cons_of_flatMap_quoteChar hz hafter'
            have hle := (ih hrest).1
            have hbytes := utf8EncodeChar_length_pos
            have := hbytes c
            have := hbytes y
            simp only [List.flatMap_cons, List.length_append, List.length_singleton]
            omega
          · rw [hcode] at heq
            exact absurd heq hpart.not_codePointEscape
        exact ⟨hlt.le, fun hlength => absurd hlength hlt.ne⟩

/-- **A quoted text is a literal for the text just if all of its characters are portable.** -/
theorem denotes_quote_iff (s : String) :
    Denotes (quote s) (utf8Bytes s) ↔ ∀ c ∈ s.toList, IsPortable c := by
  rw [utf8Bytes_eq]
  constructor
  · rintro ⟨parts, words, hparts, hbytes, hwords⟩
    rw [toList_quote, List.cons.injEq] at hwords
    have heq : words.flatten = s.toList.flatMap quoteChar :=
      List.append_cancel_right hwords.2.symm
    exact (length_le_of_spellsBytes hparts heq).2 (by rw [hbytes])
  · intro hall
    refine ⟨s.toList.map String.utf8EncodeChar, s.toList.map quoteChar, ?_, ?_, ?_⟩
    · rw [List.forall₂_map_left_iff, List.forall₂_map_right_iff, List.forall₂_same]
      exact fun c hc => (hall c hc).spellsBytes
    · rw [List.flatMap_def]
    · rw [toList_quote, List.flatMap_def]

end ImportPlan.Text
