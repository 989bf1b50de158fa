namespace ImportPlan.Path

/-!
# Import paths

An import path consists of segments that are separated by slashes. A segment is not empty and holds
ASCII letters, digits and the characters `_`, `.`, `~`, `+` and `-`.

* `isValid` — whether a text is an import path.
* `lastSegment` — the text after the last slash, which names the package by default.
* `shownAlias` — the alias to write for a path: none if it says no more than the path does.
-/

/-- Whether a segment may hold `c`. -/
def isSegmentChar (c : Char) : Bool :=
  c.isAlphanum || c == '_' || c == '.' || c == '~' || c == '+' || c == '-'

/-- Whether a path may go on like this; `inside` says that its current segment has a character. -/
def accepts : Bool → List Char → Bool
  | inside, [] => inside
  | inside, '/' :: rest => inside && accepts false rest
  | _, c :: rest => isSegmentChar c && accepts true rest

/-- Whether the text is an import path. -/
def isValid (path : String) : Bool := accepts false path.toList

/-- The text after the last slash; the whole text if there is none. -/
def lastSegment (path : String) : String :=
  String.ofList (path.toList.reverse.takeWhile (· != '/')).reverse

/-- The alias to write for `path`: none if it is the path itself or its last segment. -/
def shownAlias (name path : String) : String :=
  if name = path ∨ name = lastSegment path then "" else name

end ImportPlan.Path
