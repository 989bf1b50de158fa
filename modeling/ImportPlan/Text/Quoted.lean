import ImportPlan.Text.Printable

namespace ImportPlan.Text

/-!
# Quoted text

* `quote` — a text between double quotes, on one line and free of invisible characters.

A quote and a backslash are marked by a backslash; NUL, tab, line feed and carriage return have
short escapes; any other character that cannot stand on its own is written by its code point in
lowercase hexadecimal digits between braces.
-/

/-- The escape of a character by its code point. -/
def codePointEscape (c : Char) : List Char :=
  ['\\', 'u', '\x7b'] ++ Nat.toDigits 16 c.toNat ++ ['\x7d']

/-- How a character is written inside quotes. -/
def quoteChar (c : Char) : List Char :=
  match c with
  | '"' => ['\\', '"']
  | '\\' => ['\\', '\\']
  | '\x00' => ['\\', '0']
  | '\t' => ['\\', 't']
  | '\n' => ['\\', 'n']
  | '\r' => ['\\', 'r']
  | c => if standsAlone c then [c] else codePointEscape c

/-- The text between double quotes. -/
def quote (s : String) : String :=
  String.ofList ('"' :: s.toList.flatMap quoteChar ++ ['"'])

end ImportPlan.Text
