import ImportPlan.Json.Basic
import ImportPlan.Path
import ImportPlan.Scope.Basic
import ImportPlan.Table
import ImportPlan.Text.Quoted

namespace ImportPlan

/-!
# Import blocks

The imports of one file: its paths in the order of their registration, each with the alias to write
before it.

* `Block.ofBindings` — the block of a scope without the paths that are held back.
* `Block.render` — the block as source text, sorted by path.
* `Block.toJson` — the block as an object from paths to aliases, in order.
-/

/-- Import paths with their aliases; an empty alias says that the path names the package already. -/
structure Block where
  table : Table
  deriving DecidableEq, Repr

namespace Block

/-- The block without imports. -/
def empty : Block := ⟨Table.empty⟩

/-- The paths with their aliases in order. -/
def imports (b : Block) : List (String × String) := b.table.entries

/-- The number of imports. -/
def size (b : Block) : Nat := b.table.size

/-- Whether there is no import. -/
def isEmpty (b : Block) : Bool := b.table.isEmpty

/-- The alias of a path. -/
def aliasOf? (b : Block) (path : String) : Option String := b.table.get? path

/-- Whether a path is imported. -/
def contains (b : Block) (path : String) : Bool := b.table.contains path

/-- The bindings as imports, without those whose path is held back. -/
def ofBindings (isHeldBack : String → Bool) (bindings : List Binding) : Block :=
  ⟨Table.ofList ((bindings.filter fun b => !isHeldBack b.id).map
    fun b => (b.id, Path.shownAlias b.name b.id))⟩

/-! ### Rendering -/

/-- The imports sorted by path. -/
def sorted (b : Block) : List (String × String) :=
  b.imports.mergeSort fun x y => decide (x.1 ≤ y.1)

/-- The line of one import. -/
def renderImport (path name : String) : String :=
  "\t" ++ (if name = "" then "" else name ++ " ") ++ Text.quote path ++ "\n"

/-- The block as source text; a block without imports has no text. -/
def render (b : Block) : String :=
  if b.isEmpty then ""
  else "import (\n" ++ String.join (b.sorted.map fun e => renderImport e.1 e.2) ++ ")\n"

/-- The block as an object whose keys are the paths. -/
def toJson (b : Block) : Json := .object (b.imports.map fun e => (e.1, .text e.2))

end Block

end ImportPlan
