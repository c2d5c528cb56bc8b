import ProgramFacts.Facts.Encode
import ProgramFacts.Facts.Walk
import ProgramFacts.Model.Declaration

/-!
# The facts of declarations

A type of a known kind gives a fact of its own, which holds what its direct members contribute: a marker for a
type, a fact for a method, a constructor or a field. Its members' own facts have been written before it.
-/

namespace ProgramFacts

/-- The kinds of types that have facts. -/
inductive TypeShape
  | classType
  | interface
  | enumeration
  | annotationType
  | record
deriving DecidableEq

def TypeShape.ofKind? (kind : String) : Option TypeShape :=
  if kind = "CLASS" then some .classType
  else if kind = "INTERFACE" then some .interface
  else if kind = "ENUM" then some .enumeration
  else if kind = "ANNOTATION_TYPE" then some .annotationType
  else if kind = "RECORD" then some .record
  else none

/-- The kinds of variables that the scopes declaring them account for. -/
def ignoredVariableKinds : List String :=
  ["ENUM_CONSTANT", "PARAMETER", "LOCAL_VARIABLE", "RESOURCE_VARIABLE", "EXCEPTION_PARAMETER", "BINDING_VARIABLE"]

/-- The name within its package; the nameless package adds nothing. -/
def qualify (package name : String) : String := if package = "" then name else package ++ "." ++ name

open Walk (ofNoted ofResult)

/-- The fact of a method, of a constructor, or none; initializers are left out. -/
def Executable.visit (docs : Bool) (e : Executable) : Walk (Option Term) :=
  if e.kind = "METHOD" then do
    let typeParameters ← ofNoted (encodeTypeParameters e.typeParameters)
    let returnType ← ofNoted e.returnType.encode
    let parameters ← ofNoted (encodeParameters e.parameters)
    let throws ← ofNoted (encodeThrows e.thrownTypes)
    let notes ← ofNoted (encodeAnnotations e.annotations)
    let doc ← ofResult (encodeDoc docs e.doc)
    Walk.count { methods := 1 }
    pure (some (.compound "method"
      [.atom e.name, encodeModifiers e.modifiers, typeParameters, returnType, parameters, throws, notes, doc]))
  else if e.kind = "CONSTRUCTOR" then do
    let typeParameters ← ofNoted (encodeTypeParameters e.typeParameters)
    let parameters ← ofNoted (encodeParameters e.parameters)
    let throws ← ofNoted (encodeThrows e.thrownTypes)
    let notes ← ofNoted (encodeAnnotations e.annotations)
    let doc ← ofResult (encodeDoc docs e.doc)
    Walk.count { constructors := 1 }
    pure (some (.compound "constructor"
      [.atom e.name, encodeModifiers e.modifiers, typeParameters, parameters, throws, notes, doc]))
  else do
    Walk.skip (.executableKind e.kind e.name)
    pure none

/-- The fact of a field; other variables belong to the scopes that declare them. -/
def Variable.visit (docs : Bool) (v : Variable) : Walk (Option Term) :=
  if v.kind ∈ ignoredVariableKinds then pure none
  else if v.kind = "FIELD" then do
    let type ← ofNoted v.type.encode
    let notes ← ofNoted (encodeAnnotations v.annotations)
    let doc ← ofResult (encodeDoc docs v.doc)
    Walk.count { fields := 1 }
    pure (some (.compound "field" [.atom v.name, encodeModifiers v.modifiers, type, notes, doc]))
  else do
    Walk.skip (.variableKind v.kind v.name)
    pure none

namespace TypeHead

/-- What the enclosing scope keeps of a type. -/
def marker (t : TypeHead) : Term := .compound "type_declaration" [.atom t.name, .atom t.kind]

/-- The fact of a type of a known shape. -/
def fact (docs : Bool) (package : String) (t : TypeHead) (members : List Term) : TypeShape → Walk Term
  | .classType => do
    let typeParameters ← ofNoted (encodeTypeParameters t.typeParameters)
    let superclass ← ofNoted (encodeExtends t.superclass)
    let interfaces ← ofNoted (encodeImplements t.interfaces)
    let notes ← ofNoted (encodeAnnotations t.annotations)
    let doc ← ofResult (encodeDoc docs t.doc)
    pure (.compound "class"
      [.atom t.name, .atom package, encodeModifiers t.modifiers, typeParameters, superclass, interfaces,
        atoms t.permitted, .list members, notes, doc])
  | .interface => do
    let typeParameters ← ofNoted (encodeTypeParameters t.typeParameters)
    let interfaces ← ofNoted (encodeImplements t.interfaces)
    let notes ← ofNoted (encodeAnnotations t.annotations)
    let doc ← ofResult (encodeDoc docs t.doc)
    pure (.compound "interface"
      [.atom t.name, .atom package, encodeModifiers t.modifiers, typeParameters, interfaces, .list members,
        notes, .list (t.permitted.map (declaredTerm · [])), doc])
  | .enumeration => do
    let interfaces ← ofNoted (encodeImplements t.interfaces)
    let notes ← ofNoted (encodeAnnotations t.annotations)
    let doc ← ofResult (encodeDoc docs t.doc)
    pure (.compound "enum"
      [.atom t.name, .atom package, encodeModifiers t.modifiers, interfaces, .list members, notes, doc])
  | .annotationType => do
    let notes ← ofNoted (encodeAnnotations t.annotations)
    let doc ← ofResult (encodeDoc docs t.doc)
    pure (.compound "annotation_type"
      [.atom t.name, .atom package, encodeModifiers t.modifiers, notes, doc])
  | .record => do
    let typeParameters ← ofNoted (encodeTypeParameters t.typeParameters)
    let interfaces ← ofNoted (encodeImplements t.interfaces)
    let components ← ofNoted (encodeComponents t.components)
    let notes ← ofNoted (encodeAnnotations t.annotations)
    let doc ← ofResult (encodeDoc docs t.doc)
    pure (.compound "record"
      [.atom t.name, .atom package, encodeModifiers t.modifiers, typeParameters, interfaces, components,
        .list members, notes, doc])

/-- Writes the fact of a type after the walk of its members; a type of no known shape is left out with all
that is in it. -/
def visitWith (docs : Bool) (package : String) (t : TypeHead) (members : Walk (List Term)) :
    Walk (Option Term) :=
  match TypeShape.ofKind? t.kind with
  | none => do
    Walk.skip (.typeKind t.kind (qualify package t.name))
    pure none
  | some shape => do
    let ms ← members
    let f ← t.fact docs package ms shape
    Walk.write (.type package t.name) f
    Walk.count { types := 1 }
    pure (some f)

end TypeHead

mutual

/-- Walks a member of a type and gives what it contributes to the type's fact. -/
def visitMember (docs : Bool) (package : String) : Declaration → Walk (Option Term)
  | .ofType t ds => do
    let f ← t.visitWith docs package (visitMembers docs package ds)
    pure (f.map fun _ => t.marker)
  | .ofExecutable e => e.visit docs
  | .ofVariable v => v.visit docs
  | .stray f => do
    let shown ← ofResult (textOrOversized f.shown?)
    Walk.skip (.member shown)
    pure none

/-- Walks members in order and gives what they contribute. -/
def visitMembers (docs : Bool) (package : String) : List Declaration → Walk (List Term)
  | [] => pure []
  | d :: ds => do
    let m ← visitMember docs package d
    let ms ← visitMembers docs package ds
    pure (m.toList ++ ms)

end

/-- Walks a type and gives its fact. -/
def visitType (docs : Bool) (package : String) (t : TypeHead) (members : List Declaration) :
    Walk (Option Term) :=
  t.visitWith docs package (visitMembers docs package members)

end ProgramFacts
