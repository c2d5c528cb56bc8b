import ProgramFacts.Model.Reading.Types
import ProgramFacts.Model.Value

/-!
# Reading annotations and their values
-/

namespace ProgramFacts

mutual

/-- Reads a value that is a node inside the knots with the given labels. -/
def readValueIn (labels : List Nat) (place : Place) : Document → Except Fault Value
  | .scalar (.bool b) => .ok (.bool b)
  | .scalar (.integer n) => .ok (.integer n)
  | .scalar (.number x) => .ok (.number x)
  | .scalar (.text s) => .ok (.text s)
  | .list ds => do
    let vs ← readValues place 0 ds
    pure (.list vs)
  | .mapping es =>
    match Entries.get? es "char" with
    | some d => .char <$> d.readText
    | none =>
    match Entries.get? es "enum" with
    | some d => do
      let enclosing ← d.readText
      let name ← Entries.readText es place "constant"
      pure (.enumConstant enclosing name)
    | none =>
    match readNoteUnder place "annotation" es with
    | some note => do
      let a ← note
      pure (.nested a.name a.arguments)
    | none =>
    match Entries.get? es "type" with
    | some d => do
      let t ← readType (place.field "type") d
      pure (.type t)
    | none =>
    match Entries.get? es "other" with
    | some d => do
      let kind ← d.readText
      let description ← Entries.readDescription es
      pure (.other kind description)
    | none => .error ((Document.mapping es).showing place .unknownValue labels)
  | .knot l d => readValueIn (l :: labels) place d
  | d => .error (d.misfit place .notMapping)

/-- The values of a list, the first of which has the given index. -/
def readValues (place : Place) (i : Nat) : List Document → Except Fault (List Value)
  | [] => .ok []
  | d :: ds => do
    let v ← readValueIn [] (place.item i) d
    let vs ← readValues place (i + 1) ds
    pure (v :: vs)

/-- An annotation is a bare name, or a mapping with a name and arguments. -/
def readNote (place : Place) : Document → Except Fault Annotation
  | .scalar (.text s) => .ok { name := s }
  | .mapping es =>
    match readArgumentsUnder place "arguments" es with
    | .error f => .error f
    | .ok args => do
      let name ← Entries.readText es place "name"
      let vs ← args
      pure { name := name, arguments := vs }
  | .knot _ d => readNote place d
  | d => .error (d.misfit place .notMapping)

/-- The annotation under a name, if there is anything. -/
def readNoteUnder (place : Place) (name : String) :
    List (Scalar × Document) → Option (Except Fault Annotation)
  | [] => none
  | (k, d) :: es =>
    if k = .text name then some (readNote (place.field name) d) else readNoteUnder place name es

/-- The arguments under a name: first whether they are a mapping, then what reading them gives. Nothing and
whatever does not count as given stand for no arguments. -/
def readArgumentsUnder (place : Place) (name : String) :
    List (Scalar × Document) → Except Fault (Except Fault (List (String × Value)))
  | [] => .ok (.ok [])
  | (k, d) :: es =>
    if k = .text name then readArgumentMapping (place.field name) d else readArgumentsUnder place name es

/-- The arguments of a node. -/
def readArgumentMapping (place : Place) : Document → Except Fault (Except Fault (List (String × Value)))
  | .mapping args => .ok (readArguments place args)
  | .knot _ d => readArgumentMapping place d
  | d => if d.isGiven then .error (d.misfit place .notMapping) else .ok (.ok [])

/-- The arguments in order, each named by its key. -/
def readArguments (place : Place) : List (Scalar × Document) → Except Fault (List (String × Value))
  | [] => .ok []
  | (k, d) :: es =>
    match k.asText? with
    | none => .error .oversized
    | some name => do
      let v ← readValueIn [] (place.down (.key k)) d
      let vs ← readArguments place es
      pure ((name, v) :: vs)

end

def readValue : Reader Value := readValueIn []

end ProgramFacts
