import ImportPlan.Json.Text

namespace ImportPlan.Json

/-!
# Tokens

* `Token` — a bracket, a separator or a literal.
* `nextToken` — the token at the start of a text.
* `tokens` — all tokens of a text, up to the first one after which it cannot be read on.
-/

/-- A bracket, a separator or a literal. -/
inductive Token
  | listOpen
  | listClose
  | objectOpen
  | objectClose
  | comma
  | colon
  | text (literal : Leaf String)
  | scalar (literal : Leaf Scalar)
  /-- A character that starts no token. -/
  | stray

/-- Whether a character may stand between tokens. -/
def isSpacing (c : Char) : Bool := c == ' ' || c == '\n' || c == '\t' || c == '\r'

/-- Scans the rest of a keyword. -/
def scanWord (value : Scalar) : List Char → List Char → Leaf Scalar × List Char
  | [], cs => (.ofValue value, cs)
  | _ :: _, [] => (.ofFault .ended, [])
  | w :: ws, c :: cs => if c = w then scanWord value ws cs else (.ofFault .malformed, cs)

/-- The token that starts with `c`. -/
def tokenAt (c : Char) (cs : List Char) : Token × List Char :=
  match c with
  | '[' => (.listOpen, cs)
  | ']' => (.listClose, cs)
  | '\x7b' => (.objectOpen, cs)
  | '\x7d' => (.objectClose, cs)
  | ',' => (.comma, cs)
  | ':' => (.colon, cs)
  | '"' => (scanText cs).map .text id
  | 'n' => (scanWord .null ['u', 'l', 'l'] cs).map .scalar id
  | 't' => (scanWord (.bool true) ['r', 'u', 'e'] cs).map .scalar id
  | 'f' => (scanWord (.bool false) ['a', 'l', 's', 'e'] cs).map .scalar id
  | c =>
    if c == '-' || c.isDigit then (scanNumber (c :: cs)).map .scalar id else (.stray, cs)

/-- The first token of a text and the text after it. -/
def nextToken (cs : List Char) : Option (Token × List Char) :=
  match cs.dropWhile isSpacing with
  | [] => none
  | c :: rest => some (tokenAt c rest)

/-- Whether the text can be read on after a token. -/
def Token.isWhole : Token → Bool
  | .text literal => literal.skip.isNone
  | .scalar literal => literal.skip.isNone
  | .stray => false
  | _ => true

/-- The tokens of a text, at most `count` of them. -/
def takeTokens : Nat → List Char → List Token
  | 0, _ => []
  | count + 1, cs =>
    match nextToken cs with
    | none => []
    | some (token, rest) => token :: if token.isWhole then takeTokens count rest else []

/-- The tokens of a text; it has no more of them than characters. -/
def tokens (cs : List Char) : List Token := takeTokens cs.length cs

/-! ### Lengths -/

theorem length_scanWord (value : Scalar) (ws cs : List Char) :
    (scanWord value ws cs).2.length ≤ cs.length := by
  fun_induction scanWord value ws cs <;> simp_all
  omega

/-- Every token takes the character that it starts with. -/
theorem length_tokenAt (c : Char) (cs : List Char) : (tokenAt c cs).2.length ≤ cs.length := by
  unfold tokenAt
  split <;> simp [length_scanWord, scanText, length_scanTextFrom]
  split <;> simp
  rename_i h
  exact length_scanNumber cs (by simpa using h)

theorem length_of_nextToken {cs rest : List Char} {t : Token} (h : nextToken cs = some (t, rest)) :
    rest.length < cs.length := by
  have := length_dropWhile_le isSpacing cs
  unfold nextToken at h
  split at h
  · simp at h
  · next c rest' hc =>
    have := length_tokenAt c rest'
    simp_all
    grind

/-- Two counts that are large enough give the same tokens. -/
theorem takeTokens_congr {n m : Nat} {cs : List Char} (hn : cs.length ≤ n) (hm : cs.length ≤ m) :
    takeTokens n cs = takeTokens m cs := by
  induction n generalizing m cs with
  | zero =>
    obtain rfl : cs = [] := List.length_eq_zero_iff.1 (Nat.le_zero.1 hn)
    cases m <;> simp [takeTokens, nextToken]
  | succ n ih =>
    cases m with
    | zero =>
      obtain rfl : cs = [] := List.length_eq_zero_iff.1 (Nat.le_zero.1 hm)
      simp [takeTokens, nextToken]
    | succ m =>
      simp only [takeTokens]
      split
      · rfl
      · next token rest h =>
        have hlt := length_of_nextToken h
        rw [ih (m := m) (by omega) (by omega)]

/-- Asking for more tokens than there are characters gives no more of them. -/
theorem takeTokens_of_length_le {n : Nat} {cs : List Char} (h : cs.length ≤ n) :
    takeTokens n cs = tokens cs := takeTokens_congr h (Nat.le_refl _)

end ImportPlan.Json
