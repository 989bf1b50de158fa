import ImportPlan.Json.Number

namespace ImportPlan.Json

/-!
# Text literals

* `scanText` — scans a text literal after its opening quote.

An escape may denote one half of a surrogate pair. A half without its partner is no character, so a
reader that wants the text meets a fault there, while one that passes over it does not.
-/

/-! ### Escapes -/

/-- The value of a hexadecimal digit. -/
def hexValue? (c : Char) : Option Nat :=
  if '0' ≤ c ∧ c ≤ '9' then some (c.toNat - '0'.toNat)
  else if 'a' ≤ c ∧ c ≤ 'f' then some (c.toNat - 'a'.toNat + 10)
  else if 'A' ≤ c ∧ c ≤ 'F' then some (c.toNat - 'A'.toNat + 10)
  else none

/-- The value of four hexadecimal digits. -/
def quadValue? (a b c d : Char) : Option Nat := do
  return (((← hexValue? a) * 16 + (← hexValue? b)) * 16 + (← hexValue? c)) * 16 + (← hexValue? d)

/-- Whether the number is the first half of a surrogate pair. -/
def isHighHalf (n : Nat) : Bool := 0xd800 ≤ n && n ≤ 0xdbff

/-- Whether the number is the second half of a surrogate pair. -/
def isLowHalf (n : Nat) : Bool := 0xdc00 ≤ n && n ≤ 0xdfff

/-- The character of a surrogate pair. -/
def pairChar (high low : Nat) : Char :=
  Char.ofNat ((high - 0xd800) * 0x400 + (low - 0xdc00) + 0x10000)

/-- The character of a one-letter escape. -/
def escapedChar? : Char → Option Char
  | '"' => some '"'
  | '\\' => some '\\'
  | '/' => some '/'
  | 'b' => some '\x08'
  | 'f' => some '\x0c'
  | 'n' => some '\n'
  | 'r' => some '\r'
  | 't' => some '\t'
  | _ => none

/-- The fault of an escape whose digits are not there: fewer than four bytes are left, or they are
no digits. -/
def quadFault (rest : List Char) : Fault :=
  if (String.ofList rest).utf8ByteSize < 4 then .ended else .malformed

/-! ### Scanning -/

/-- What has been scanned of a literal. -/
structure Scanned where
  /-- The characters, newest first, or the first fault. -/
  chars : Except Fault (List Char)
  /-- A high half that waits for its partner. -/
  high : Option Nat

namespace Scanned

/-- Nothing has been scanned. -/
def empty : Scanned := ⟨.ok [], none⟩

/-- The characters when something else than a low half comes next. -/
def settled (s : Scanned) : Except Fault (List Char) :=
  match s.high, s.chars with
  | some _, .ok _ => .error .malformed
  | _, chars => chars

/-- One more character. -/
def push (s : Scanned) (c : Char) : Scanned := ⟨s.settled.map (c :: ·), none⟩

/-- One more code unit, given by an escape. -/
def pushUnit (s : Scanned) (n : Nat) : Scanned :=
  if isLowHalf n then
    match s.high with
    | some high => ⟨s.chars.map (pairChar high n :: ·), none⟩
    | none => ⟨s.chars.bind fun _ => .error .malformed, none⟩
  else if isHighHalf n then ⟨s.settled, some n⟩
  else s.push (Char.ofNat n)

/-- The literal that ends here. -/
def close (s : Scanned) : Leaf String := ⟨s.settled.map fun cs => String.ofList cs.reverse, none⟩

/-- The literal that cannot go on. -/
def giveUp (s : Scanned) (f : Fault) : Leaf String := ⟨s.chars.bind fun _ => .error f, some f⟩

end Scanned

/-- Scans the rest of a literal. -/
def scanTextFrom (s : Scanned) : List Char → Leaf String × List Char
  | [] => (s.giveUp .ended, [])
  | '"' :: rest => (s.close, rest)
  | ['\\'] => (s.giveUp .ended, [])
  | '\\' :: 'u' :: a :: b :: c :: d :: rest =>
    match quadValue? a b c d with
    | some n => scanTextFrom (s.pushUnit n) rest
    | none => (s.giveUp (quadFault (a :: b :: c :: d :: rest)), rest)
  | '\\' :: 'u' :: rest => (s.giveUp (quadFault rest), rest)
  | '\\' :: c :: rest =>
    match escapedChar? c with
    | some e => scanTextFrom (s.push e) rest
    | none => (s.giveUp .malformed, rest)
  | c :: rest =>
    if c.toNat < 0x20 then (s.giveUp .malformed, rest) else scanTextFrom (s.push c) rest
termination_by structural cs => cs

/-- Scanning leaves no more than there was. -/
theorem length_scanTextFrom (s : Scanned) (cs : List Char) :
    (scanTextFrom s cs).2.length ≤ cs.length := by
  fun_induction scanTextFrom s cs <;> simp_all <;> omega

/-- Scans a text literal after its opening quote. -/
def scanText (cs : List Char) : Leaf String × List Char := scanTextFrom .empty cs

end ImportPlan.Json
