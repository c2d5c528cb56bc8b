import ProgramFacts.Facts.Noted
import ProgramFacts.Model.Declaration
import ProgramFacts.Numeral.Shortest
import ProgramFacts.Term
import ProgramFacts.Text.LetterCase

/-!
# The parts of a declaration as terms

Types, annotations with their values, and the other recurring parts of declarations. A form without a shape
becomes a placeholder and a warning; only an integer with too many digits has no term at all, and no warning either.
-/

namespace ProgramFacts

open Numeral (factStyle)

/-- The atom for an absent type. -/
def nullAtom : Term := .atom "null"

/-- The atom in place of a type that has no shape. -/
def unknownType : Term := .atom "unknown_type"

/-- The atom in place of a value that has no shape. -/
def unknownValue : Term := .atom "unknown_annotation_value"

/-- A type term of the given form. -/
def typeTerm (form : String) (operand : Term) : Term := .compound "type" [.atom form, operand]

def declaredTerm (name : String) (arguments : List Term) : Term :=
  .compound "declared_type" [.atom name, .list arguments]

mutual

def TypeExpr.encode : TypeExpr → Noted Term
  | .declared n ts => do
    let args ← TypeExpr.encodeList ts
    pure (declaredTerm n args)
  | .primitive k => pure (typeTerm "primitive" (.atom (Text.lower k)))
  | .array t => do
    let component ← t.encode
    pure (typeTerm "array" component)
  | .typeVariable n => pure (typeTerm "type_variable" (.atom n))
  | .wildcard (some t) _ => do
    let bound ← t.encode
    pure (typeTerm "wildcard_extends" bound)
  | .wildcard none (some t) => do
    let bound ← t.encode
    pure (typeTerm "wildcard_super" bound)
  | .wildcard none none => pure (typeTerm "wildcard_unbounded" nullAtom)
  | .noType k => pure (typeTerm "no_type" (.atom (Text.lower k)))
  | .other k d => .warn (.unknownType (Form.ofKind .otherType k d).describe) unknownType
  | .stray f => do
    let what ← Noted.ofResult (textOrOversized f.describe?)
    .warn (.unknownType what) unknownType

def TypeExpr.encodeList : List TypeExpr → Noted (List Term)
  | [] => pure []
  | t :: ts => do
    let a ← t.encode
    let as ← TypeExpr.encodeList ts
    pure (a :: as)

end

def annotationTerm (name : String) (arguments : List Term) : Term :=
  .compound "annotation" [.atom name, .list arguments]

/-- A text in apostrophes, as the value of an argument. -/
def apostrophized (s : String) : String := "'" ++ s ++ "'"

mutual

def Value.encode : Value → Noted Term
  | .bool b => pure (.atom (if b then "true" else "false"))
  | .integer n => if Numeral.isWritable n then pure (.atom (toString n)) else .fail .oversized
  | .number x => pure (.atom (x.text factStyle))
  | .text s => pure (.atom (apostrophized s))
  | .char s => pure (.atom (apostrophized s))
  | .enumConstant e n => pure (.atom (e ++ "." ++ n))
  | .nested n vs => do
    let args ← Value.encodeArguments vs
    pure (annotationTerm n args)
  | .list vs => do
    let ts ← Value.encodeList vs
    pure (.list ts)
  | .type t => t.encode
  | .other k d => .warn (.unknownValue (Form.ofKind .otherValue k d).describe) unknownValue
  | .stray f => do
    let what ← Noted.ofResult (textOrOversized f.describe?)
    .warn (.unknownValue what) unknownValue

def Value.encodeList : List Value → Noted (List Term)
  | [] => pure []
  | v :: vs => do
    let a ← v.encode
    let as ← Value.encodeList vs
    pure (a :: as)

def Value.encodeArguments : List (String × Value) → Noted (List Term)
  | [] => pure []
  | (n, v) :: vs => do
    let a ← v.encode
    let as ← Value.encodeArguments vs
    pure (.compound "annotation_argument" [.atom n, a] :: as)

end

def Annotation.encode (a : Annotation) : Noted Term := do
  let args ← Value.encodeArguments a.arguments
  pure (annotationTerm a.name args)

def encodeAnnotations (as : List Annotation) : Noted Term := do
  let ts ← Noted.each Annotation.encode as
  pure (.list ts)

/-- Modifiers count without their case. -/
def encodeModifiers (ms : List String) : Term :=
  .list (ms.map fun m => .compound "modifier" [.atom (Text.lower m)])

def encodeTypes (ts : List TypeExpr) : Noted Term := do
  let as ← TypeExpr.encodeList ts
  pure (.list as)

def TypeParameter.encode (p : TypeParameter) : Noted Term := do
  let bounds ← encodeTypes p.bounds
  let notes ← encodeAnnotations p.annotations
  pure (.compound "type_parameter" [.atom p.name, bounds, notes])

def encodeTypeParameters (ps : List TypeParameter) : Noted Term := do
  let ts ← Noted.each TypeParameter.encode ps
  pure (.list ts)

def Parameter.encode (p : Parameter) : Noted Term := do
  let type ← p.type.encode
  let notes ← encodeAnnotations p.annotations
  pure (.compound "parameter" [.atom p.name, type, encodeModifiers p.modifiers, notes])

def encodeParameters (ps : List Parameter) : Noted Term := do
  let ts ← Noted.each Parameter.encode ps
  pure (.list ts)

def encodeThrown (t : TypeExpr) : Noted Term := do
  let type ← t.encode
  pure (.compound "throws" [type])

def encodeThrows (ts : List TypeExpr) : Noted Term := do
  let as ← Noted.each encodeThrown ts
  pure (.list as)

def RecordComponent.encode (c : RecordComponent) : Noted Term := do
  let type ← c.type.encode
  let notes ← encodeAnnotations c.annotations
  pure (.compound "record_component" [.atom c.name, type, notes])

def encodeComponents (cs : List RecordComponent) : Noted Term := do
  let ts ← Noted.each RecordComponent.encode cs
  pure (.list ts)

/-- The form of a supertype. -/
def TypeExpr.form : TypeExpr → String
  | .declared _ _ => "declared"
  | .primitive k => k
  | .array _ => "array"
  | .typeVariable _ => "typevar"
  | .wildcard _ _ => "wildcard"
  | .noType k => k
  | .other k _ => Text.lower k
  | .stray f => f.formName

/-- The class that every class extends. -/
def rootClass : String := "java.lang.Object"

/-- Whether a superclass goes without saying. -/
def TypeExpr.isImplied : TypeExpr → Bool
  | .noType _ => true
  | .declared n [] => n == rootClass
  | _ => false

def encodeExtends : Option TypeExpr → Noted Term
  | none => pure nullAtom
  | some t =>
    if t.isImplied then pure nullAtom
    else do
      let type ← t.encode
      pure (.compound "extends" [.atom t.form, type])

def encodeInterface (t : TypeExpr) : Noted Term := do
  let type ← t.encode
  pure (.compound "implements" [.atom t.form, type])

def encodeImplements (ts : List TypeExpr) : Noted Term := do
  let as ← Noted.each encodeInterface ts
  pure (.list as)

/-- The names as atoms. -/
def atoms (names : List String) : Term := .list (names.map .atom)

end ProgramFacts
