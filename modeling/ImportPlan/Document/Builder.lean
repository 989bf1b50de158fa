import ImportPlan.Document.Basic

namespace ImportPlan

/-!
# Building documents

* `Document.declare` — one more declaration at the end of a document.
* `Document.ofDeclarations` — the document with the declarations in turn.
-/

/-- A step in the building of a document. -/
inductive Declaration
  | enumeration (name : String)
  /-- A struct with one boolean field. -/
  | struct (name : String)
  | union (name : String)
  | exception (name : String)
  | service (name : String)
  /-- A function of the last service. -/
  | method (name : String)
  /-- The last service extends this one. -/
  | base (name : String)
  deriving DecidableEq, Repr

namespace Document

/-- Changes the last service. -/
def modifyLastService (f : Service → Service) (d : Document) : Document :=
  { d with services := d.services.modify (d.services.length - 1) f }

/-- Appends one declaration. -/
def declare (d : Document) : Declaration → Document
  | .enumeration name => { d with enums := d.enums ++ [⟨name, []⟩] }
  | .struct name => { d with structs := d.structs ++ [⟨name, [⟨1, "f", .bool⟩]⟩] }
  | .union name => { d with unions := d.unions ++ [⟨name, []⟩] }
  | .exception name => { d with exceptions := d.exceptions ++ [⟨name, []⟩] }
  | .service name => { d with services := d.services ++ [⟨name, none, []⟩] }
  | .method name => d.modifyLastService fun s => { s with methods := s.methods ++ [⟨name⟩] }
  | .base name => d.modifyLastService fun s => { s with base := some name }

/-- The document with these declarations. -/
def ofDeclarations (filename : String) (declarations : List Declaration) : Document :=
  declarations.foldl declare (empty filename)

end Document

end ImportPlan
