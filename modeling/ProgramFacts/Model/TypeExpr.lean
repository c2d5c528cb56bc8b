import ProgramFacts.Model.Form

/-!
# Type expressions
-/

namespace ProgramFacts

/-- A type as it is written in a declaration. -/
inductive TypeExpr
  | declared (name : String) (arguments : List TypeExpr)
  | primitive (kind : String)
  | array (component : TypeExpr)
  | typeVariable (name : String)
  | wildcard (extendsBound superBound : Option TypeExpr)
  /-- No type, such as the result of a procedure. -/
  | noType (kind : String)
  /-- A form of types that facts have no shape for. -/
  | other (kind description : String)
  /-- Something that is no type. -/
  | stray (f : Form)

instance : Inhabited TypeExpr := ⟨.noType "void"⟩

/-- The names of the primitive types. -/
def primitiveNames : List String := ["boolean", "byte", "short", "int", "long", "char", "float", "double"]

/-- The type that a bare name stands for. -/
def TypeExpr.ofName (name : String) : TypeExpr :=
  if name ∈ primitiveNames then .primitive name
  else if name = "void" then .noType "void"
  else .declared name []

end ProgramFacts
