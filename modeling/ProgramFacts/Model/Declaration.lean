import ProgramFacts.Document
import ProgramFacts.Model.Value

/-!
# Declarations

Types, executables and variables. A type declares members, which are declarations again.
-/

namespace ProgramFacts

structure TypeParameter where
  name : String
  bounds : List TypeExpr := []
  annotations : List Annotation := []
deriving Inhabited

structure Parameter where
  name : String
  type : TypeExpr
  modifiers : List String := []
  annotations : List Annotation := []
deriving Inhabited

structure RecordComponent where
  name : String
  type : TypeExpr
  annotations : List Annotation := []
deriving Inhabited

/-- A field, an enumeration constant, or a variable of some other kind. -/
structure Variable where
  kind : String
  name : String
  type : TypeExpr
  modifiers : List String := []
  annotations : List Annotation := []
  doc : Document := .null
deriving Inhabited

/-- A method, a constructor or an initializer. -/
structure Executable where
  kind : String
  name : String
  modifiers : List String := []
  typeParameters : List TypeParameter := []
  returnType : TypeExpr := .noType "void"
  parameters : List Parameter := []
  thrownTypes : List TypeExpr := []
  annotations : List Annotation := []
  doc : Document := .null
deriving Inhabited

/-- All of a type declaration but its members. -/
structure TypeHead where
  kind : String
  name : String
  modifiers : List String := []
  typeParameters : List TypeParameter := []
  superclass : Option TypeExpr := none
  interfaces : List TypeExpr := []
  permitted : List String := []
  components : List RecordComponent := []
  annotations : List Annotation := []
  doc : Document := .null
deriving Inhabited

inductive Declaration
  | ofType (head : TypeHead) (members : List Declaration)
  | ofExecutable (e : Executable)
  | ofVariable (v : Variable)
  /-- Something that is no declaration. -/
  | stray (f : Form)
deriving Inhabited

/-- The kinds of executables. -/
def executableKinds : List String := ["METHOD", "CONSTRUCTOR", "STATIC_INIT", "INSTANCE_INIT"]

/-- The kinds of variables. -/
def variableKinds : List String :=
  ["FIELD", "ENUM_CONSTANT", "PARAMETER", "LOCAL_VARIABLE", "RESOURCE_VARIABLE", "EXCEPTION_PARAMETER",
    "BINDING_VARIABLE"]

end ProgramFacts
