import ImportPlan.Scope.Basic

namespace ImportPlan

/-!
# Diagnostic text of a scope

* `Scope.debugText` — the bindings on one line, names and ids in quotes.
-/

/-- A binding as `name: id`, both in quotes. -/
def Binding.debugText (b : Binding) : String := Text.quote b.name ++ ": " ++ Text.quote b.id

/-- The bindings of a scope in order; the renaming has no text. -/
def Scope.debugText (s : Scope) : String :=
  "DefaultNamespace \x7b names: \x7b" ++ ", ".intercalate (s.bindings.map (·.debugText))
    ++ "\x7d, .. \x7d"

end ImportPlan
