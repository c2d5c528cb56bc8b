import ProgramFacts.Model.Declaration

/-!
# Programs

Modules with their directives, and packages with their declarations.
-/

namespace ProgramFacts

/-- What a module says about other modules, packages and services. -/
inductive Directive
  | requires (moduleName : String) (modifiers : List String) (annotations : List Annotation)
  /-- No targets: the package is exported to every module. -/
  | exports (package : String) (targets : List String) (annotations : List Annotation)
  | uses (service : TypeExpr)
  | provides (service : TypeExpr) (implementations : List TypeExpr) (annotations : List Annotation)
  /-- Something that is no directive. -/
  | stray (f : Form)
deriving Inhabited

structure Module where
  name : String
  modifiers : List String := []
  directives : List Directive := []
  packages : List String := []
deriving Inhabited

structure Package where
  name : String
  members : List Declaration := []
  annotations : List Annotation := []
  doc : Document := .null
deriving Inhabited

/-- The package's name as a path, with a slash for every dot. -/
def packagePath (name : List Char) : List Char := name.map fun c => if c = '.' then '/' else c

def Package.path (p : Package) : String := String.ofList (packagePath p.name.toList)

structure Program where
  modules : List Module := []
  packages : List Package := []
deriving Inhabited

end ProgramFacts
