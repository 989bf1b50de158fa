import ImportPlan.Json.Problem

namespace ImportPlan.Json

/-!
# Literals

* `Leaf` — what scanning a literal yields for a reader that wants its value, and for one that passes
  over it.
-/

/-- What is known of a literal after scanning it. A reader that wants its value and one that passes
over it can meet different faults, and only a fault of the latter keeps the text after it from being
read. -/
structure Leaf (α : Type) where
  read : Except Fault α
  skip : Option Fault
  deriving Repr

/-- A literal that is read without fault. -/
def Leaf.ofValue {α : Type} (a : α) : Leaf α := ⟨.ok a, none⟩

/-- A place that holds no literal. -/
def Leaf.ofFault {α : Type} (f : Fault) : Leaf α := ⟨.error f, some f⟩

end ImportPlan.Json
