import ProgramFacts.Model.Declaration
import ProgramFacts.Model.Reading.Values
import ProgramFacts.Text.LetterCase

/-!
# Reading declarations

A declaration is a mapping whose kind, in upper case, tells executables and variables; any other kind is that
of a type.
-/

namespace ProgramFacts

def Entries.readNotes (es : Entries) (place : Place) : Except Fault (List Annotation) :=
  es.readEach readNote place "annotations"

/-- The type that must stand under a name. -/
def Entries.readTypeAt (es : Entries) (place : Place) (name : String) : Except Fault TypeExpr := do
  let d ← es.readNode place name
  readType (place.field name) d

def readTypeParameter : Reader TypeParameter
  | _, .scalar (.text s) => .ok { name := s }
  | place, d => do
    let es ← readMapping place d
    let name ← es.readText place "name"
    let bounds ← es.readEach readType place "bounds"
    let annotations ← es.readNotes place
    pure { name, bounds, annotations }

def readParameter : Reader Parameter := fun place d => do
  let es ← readMapping place d
  let node ← es.readNode place "type"
  let name ← es.readText place "name"
  let type ← readType (place.field "type") node
  let modifiers ← es.readTexts place "modifiers"
  let annotations ← es.readNotes place
  pure { name, type, modifiers, annotations }

def readComponent : Reader RecordComponent := fun place d => do
  let es ← readMapping place d
  let node ← es.readNode place "type"
  let name ← es.readText place "name"
  let type ← readType (place.field "type") node
  let annotations ← es.readNotes place
  pure { name, type, annotations }

def readExecutable (kind : String) (place : Place) (es : Entries) : Except Fault Executable := do
  let name ← es.readText place "name"
  let modifiers ← es.readTexts place "modifiers"
  let typeParameters ← es.readEach readTypeParameter place "type_parameters"
  let returnType ← match es.getNull "returns" with
    | .scalar .null => .ok (.noType "void")
    | d => readType (place.field "returns") d
  let parameters ← es.readEach readParameter place "parameters"
  let thrownTypes ← es.readEach readType place "throws"
  let annotations ← es.readNotes place
  pure { kind, name, modifiers, typeParameters, returnType, parameters, thrownTypes, annotations,
         doc := es.getNull "doc" }

def readVariable (kind : String) (place : Place) (es : Entries) : Except Fault Variable := do
  let node ← es.readNode place "type"
  let name ← es.readText place "name"
  let type ← readType (place.field "type") node
  let modifiers ← es.readTexts place "modifiers"
  let annotations ← es.readNotes place
  pure { kind, name, type, modifiers, annotations, doc := es.getNull "doc" }

/-- Reads a type's fields around the result of reading its members. -/
def readTypeHead (kind : String) (place : Place) (es : Entries)
    (members : Except Fault (List Declaration)) : Except Fault Declaration := do
  let name ← es.readText place "name"
  let modifiers ← es.readTexts place "modifiers"
  let typeParameters ← es.readEach readTypeParameter place "type_parameters"
  let superclass ← match es.getNull "extends" with
    | .scalar .null => .ok none
    | d => some <$> readType (place.field "extends") d
  let interfaces ← es.readEach readType place "implements"
  let permitted ← es.readTexts place "permits"
  let components ← es.readEach readComponent place "components"
  let ds ← members
  let annotations ← es.readNotes place
  pure (.ofType { kind, name, modifiers, typeParameters, superclass, interfaces, permitted, components,
                  annotations, doc := es.getNull "doc" } ds)

mutual

def readDeclaration (place : Place) : Document → Except Fault Declaration
  | .mapping es => do
    let word ← Entries.readText es place "kind"
    let kind := Text.upper word
    if kind ∈ executableKinds then
      let e ← readExecutable kind place es
      pure (.ofExecutable e)
    else if kind ∈ variableKinds then
      let v ← readVariable kind place es
      pure (.ofVariable v)
    else readTypeHead kind place es (readMembersUnder place "members" es)
  | .knot _ d => readDeclaration place d
  | d => .error (d.misfit place .notMapping)

/-- The declarations of a list, the first of which has the given index. -/
def readDeclarations (place : Place) (i : Nat) : List Document → Except Fault (List Declaration)
  | [] => .ok []
  | d :: ds => do
    let a ← readDeclaration (place.item i) d
    let as ← readDeclarations place (i + 1) ds
    pure (a :: as)

/-- The declarations of a node; null stands for the empty list. -/
def readDeclarationList (place : Place) : Document → Except Fault (List Declaration)
  | .scalar .null => .ok []
  | .list ds => readDeclarations place 0 ds
  | .knot _ d => readDeclarationList place d
  | d => .error (d.misfit place .notList)

/-- The declarations under a name; nothing stands for the empty list. -/
def readMembersUnder (place : Place) (name : String) :
    List (Scalar × Document) → Except Fault (List Declaration)
  | [] => .ok []
  | (k, d) :: es =>
    if k = .text name then readDeclarationList (place.field name) d else readMembersUnder place name es

end

end ProgramFacts
