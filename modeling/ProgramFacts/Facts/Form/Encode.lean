import ProgramFacts.Facts.Encode
import ProgramFacts.Facts.Form.Trace

/-!
# Unchecked parts as terms

The terms of types, annotation values and the other recurring parts of declarations, where any form may stand
for any other: whatever has the fields that are looked for will do. Only types and values are told apart by
their sort, and a placeholder stands for anything else.

The recursions are bounded by the depth of what they go into.
-/

namespace ProgramFacts.Form

/-- What stands in a field that must be there. -/
def get (f : Form) (name : String) : Visit Form :=
  match f.field? name with
  | some g => pure g
  | none => throw (.lacks f.kindName name)

/-- The single things in a place for several; a text is made of its characters. -/
def items : Form → Visit (List Form)
  | .tuple fs => pure fs
  | .scalar (.text s) => pure (s.toList.map fun c => .text (String.singleton c))
  | f => throw (.notSeveral f.kindName)

/-- The things in a field that is a place for several. -/
def itemsOf (f : Form) (name : String) : Visit (List Form) := do
  (← f.get name).items

/-- The two things in the place of a pair. -/
def pair (f : Form) : Visit (Form × Form) := do
  match f with
  | .tuple _ | .scalar (.text _) =>
    match ← f.items with
    | [a, b] => pure (a, b)
    | others => throw (.notTwo others.length)
  | f => throw (.notPair f.kindName)

/-- A text without its case. -/
def lower : Form → Visit String
  | .scalar (.text s) => pure (Text.lower s)
  | f => throw (.lacks f.kindName "lower")

/-- The atom of a name. -/
def atom : Form → Written
  | .scalar (.text s) => .ok (.atom s)
  | f => .error (.notText f.kindName)

open Written (compound list)

/-- A type term of the given form. -/
def typeWritten (form : String) (operand : Written) : Written := compound "type" [.ok (.atom form), operand]

def encodeTypeIn : Nat → Form → Visit Written
  | 0, _ => pure (.ok unknownType)
  | fuel + 1, f =>
    match f with
    | .record .declaredType _ => do
      let name ← f.get "qualified_name"
      let arguments ← (← f.itemsOf "type_arguments").mapM (encodeTypeIn fuel)
      pure (compound "declared_type" [name.atom, list arguments])
    | .record .primitiveType _ => do
      let kind ← (← f.get "kind").lower
      pure (typeWritten "primitive" (.ok (.atom kind)))
    | .record .arrayType _ => do
      let component ← encodeTypeIn fuel (← f.get "component")
      pure (typeWritten "array" component)
    | .record .typeVariable _ => do
      let name ← f.get "name"
      pure (typeWritten "type_variable" name.atom)
    | .record .wildcardType _ => do
      let below ← f.get "extends_bound"
      let above ← f.get "super_bound"
      if below != .null then
        let bound ← encodeTypeIn fuel below
        pure (typeWritten "wildcard_extends" bound)
      else if above != .null then
        let bound ← encodeTypeIn fuel above
        pure (typeWritten "wildcard_super" bound)
      else pure (typeWritten "wildcard_unbounded" (.ok nullAtom))
    | .record .noType _ => do
      let kind ← (← f.get "kind").lower
      pure (typeWritten "no_type" (.ok (.atom kind)))
    | f => do
      let what ← Visit.text f.describe?
      Visit.warn (.unknownType what)
      pure (.ok unknownType)

/-- The term of a type. -/
def encodeType (f : Form) : Visit Written := encodeTypeIn (f.depth + 1) f

/-- The term of an annotation, given those of values. -/
def encodeNoteWith (value : Form → Visit Written) (f : Form) : Visit Written := do
  let name ← f.get "qualified_name"
  let arguments ← (← f.itemsOf "arguments").mapM fun a => do
    let (label, v) ← a.pair
    let term ← value v
    pure (compound "annotation_argument" [label.atom, term])
  pure (compound "annotation" [name.atom, list arguments])

def encodeValueIn : Nat → Form → Visit Written
  | 0, _ => pure (.ok unknownValue)
  | fuel + 1, f =>
    match f with
    | .scalar (.bool b) => pure (.ok (.atom (if b then "true" else "false")))
    | .scalar (.integer n) => if Numeral.isWritable n then pure (.ok (.atom (toString n))) else throw .oversized
    | .scalar (.number x) => pure (.ok (.atom (x.text Numeral.factStyle)))
    | .scalar (.text s) => pure (.ok (.atom (apostrophized s)))
    | .record .charValue _ => do
      let value ← Visit.text (← f.get "value").asText?
      pure (.ok (.atom (apostrophized value)))
    | .record .enumConstant _ => do
      let enclosing ← f.get "enclosing"
      let name ← f.get "name"
      let enclosing ← Visit.text enclosing.asText?
      let name ← Visit.text name.asText?
      pure (.ok (.atom (enclosing ++ "." ++ name)))
    | .record .note _ => encodeNoteWith (encodeValueIn fuel) f
    | .tuple fs => do
      let terms ← fs.mapM (encodeValueIn fuel)
      pure (list terms)
    | .record sort fields =>
      if sort.isType then encodeType (.record sort fields)
      else do
        let what ← Visit.text f.describe?
        Visit.warn (.unknownValue what)
        pure (.ok unknownValue)
    | f => do
      let what ← Visit.text f.describe?
      Visit.warn (.unknownValue what)
      pure (.ok unknownValue)

/-- The term of the value of an annotation's argument. -/
def encodeValue (f : Form) : Visit Written := encodeValueIn (f.depth + 1) f

/-- The term of an annotation. -/
def encodeNote (f : Form) : Visit Written := encodeNoteWith encodeValue f

/-- The terms of several things. -/
def encodeEach (encode : Form → Visit Written) (f : Form) : Visit Written := do
  let terms ← (← f.items).mapM encode
  pure (list terms)

def encodeNotes (f : Form) : Visit Written := f.encodeEach encodeNote

def encodeTypes (f : Form) : Visit Written := f.encodeEach encodeType

/-- Modifiers count without their case. -/
def encodeModifiers (f : Form) : Visit Written :=
  f.encodeEach fun m => do
    let name ← m.lower
    pure (compound "modifier" [.ok (.atom name)])

def encodeTypeParameter (f : Form) : Visit Written := do
  let name ← f.get "name"
  let bounds ← (← f.get "bounds").encodeTypes
  let notes ← (← f.get "annotations").encodeNotes
  pure (compound "type_parameter" [name.atom, bounds, notes])

def encodeTypeParameters (f : Form) : Visit Written := f.encodeEach encodeTypeParameter

def encodeParameter (f : Form) : Visit Written := do
  let name ← f.get "name"
  let type ← (← f.get "type").encodeType
  let modifiers ← (← f.get "modifiers").encodeModifiers
  let notes ← (← f.get "annotations").encodeNotes
  pure (compound "parameter" [name.atom, type, modifiers, notes])

def encodeParameters (f : Form) : Visit Written := f.encodeEach encodeParameter

def encodeThrows (f : Form) : Visit Written :=
  f.encodeEach fun t => do
    let type ← t.encodeType
    pure (compound "throws" [type])

def encodeComponent (f : Form) : Visit Written := do
  let name ← f.get "name"
  let type ← (← f.get "type").encodeType
  let notes ← (← f.get "annotations").encodeNotes
  pure (compound "record_component" [name.atom, type, notes])

def encodeComponents (f : Form) : Visit Written := f.encodeEach encodeComponent

/-- A supertype in a relation. -/
def encodeSupertype (relation : String) (f : Form) : Visit Written := do
  let type ← f.encodeType
  pure (compound relation [.ok (.atom f.formName), type])

/-- Whether a superclass goes without saying. -/
def isImplied : Form → Bool
  | .scalar .null => true
  | .record .noType _ => true
  | .record .declaredType fields =>
    fields.lookup "qualified_name" == some (.text rootClass) && !((fields.lookup "type_arguments").any isGiven)
  | _ => false

def encodeExtends (f : Form) : Visit Written :=
  if f.isImplied then pure (.ok nullAtom) else f.encodeSupertype "extends"

def encodeImplements (f : Form) : Visit Written := f.encodeEach (encodeSupertype "implements")

/-- Names as atoms. -/
def encodeNames (f : Form) : Visit Written := f.encodeEach fun n => pure n.atom

/-- The documentation atom; `docs` says whether documentation is wanted. -/
def encodeDoc (docs : Bool) (f : Form) : Visit Written :=
  if docs && f.isGiven then
    match f with
    | .scalar s => do
      let term ← ProgramFacts.encodeDoc docs (.scalar s)
      pure (.ok term)
    | f => throw (.notText f.kindName)
  else pure (.ok (.atom ""))

end ProgramFacts.Form
