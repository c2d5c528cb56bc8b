import ProgramFacts.Model.TypeExpr
import ProgramFacts.Numeral.Binary64

/-!
# Annotations and their values
-/

namespace ProgramFacts

open Numeral (Binary64)

/-- The value of an annotation's argument. -/
inductive Value
  | bool (b : Bool)
  | integer (n : Int)
  | number (x : Binary64)
  | text (s : String)
  | char (s : String)
  | enumConstant (enclosing name : String)
  /-- An annotation as a value. -/
  | nested (name : String) (arguments : List (String × Value))
  | list (values : List Value)
  | type (t : TypeExpr)
  /-- A form of values that facts have no shape for. -/
  | other (kind description : String)
  /-- Something that is no value. -/
  | stray (f : Form)

instance : Inhabited Value := ⟨.list []⟩

/-- An annotation with its named arguments, in order. -/
structure Annotation where
  name : String
  arguments : List (String × Value) := []
deriving Inhabited

end ProgramFacts
