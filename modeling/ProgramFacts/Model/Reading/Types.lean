import ProgramFacts.Model.Reading
import ProgramFacts.Model.TypeExpr

/-!
# Reading type expressions

A type is a bare name or a mapping; the first key in the order of the forms below says which form it has.
-/

namespace ProgramFacts

/-- The description under its name; it may be missing. -/
def Entries.readDescription (es : Entries) : Except Fault String :=
  match es.get? "description" with
  | some d => d.readText
  | none => .ok ""

mutual

/-- Reads a type that is a node inside the knots with the given labels. -/
def readTypeIn (labels : List Nat) (place : Place) : Document → Except Fault TypeExpr
  | .scalar (.text s) => .ok (.ofName s)
  | .mapping es =>
    match Entries.get? es "declared" with
    | some d => do
      let name ← d.readText
      let args ← readTypesUnder place "arguments" es
      pure (.declared name args)
    | none =>
    match Entries.get? es "primitive" with
    | some d => .primitive <$> d.readText
    | none =>
    match readTypeUnder place "array" es with
    | some component => do
      let t ← component
      pure (.array t)
    | none =>
    match Entries.get? es "type_variable" with
    | some d => .typeVariable <$> d.readText
    | none =>
    match Entries.get? es "wildcard" with
    | some (.scalar .null) => .ok (.wildcard none none)
    | some kind =>
      match readTypeUnder place "bound" es with
      | none => .error (kind.showing place .unboundedWildcard [])
      | some bound => do
        let t ← bound
        match kind with
        | .scalar (.text "extends") => pure (.wildcard (some t) none)
        | .scalar (.text "super") => pure (.wildcard none (some t))
        | _ => .error (kind.showing place .unknownWildcard [])
    | none =>
    match Entries.get? es "no_type" with
    | some d => .noType <$> d.readText
    | none =>
    match Entries.get? es "other" with
    | some d => do
      let kind ← d.readText
      let description ← Entries.readDescription es
      pure (.other kind description)
    | none => .error ((Document.mapping es).showing place .unknownType labels)
  | .knot l d => readTypeIn (l :: labels) place d
  | d => .error (d.misfit place .notMapping)

/-- The types of a list, the first of which has the given index. -/
def readTypes (place : Place) (i : Nat) : List Document → Except Fault (List TypeExpr)
  | [] => .ok []
  | d :: ds => do
    let t ← readTypeIn [] (place.item i) d
    let ts ← readTypes place (i + 1) ds
    pure (t :: ts)

/-- The types of a node; null stands for the empty list. -/
def readTypeList (place : Place) : Document → Except Fault (List TypeExpr)
  | .scalar .null => .ok []
  | .list ds => readTypes place 0 ds
  | .knot _ d => readTypeList place d
  | d => .error (d.misfit place .notList)

/-- The type under a name, if there is anything. -/
def readTypeUnder (place : Place) (name : String) :
    List (Scalar × Document) → Option (Except Fault TypeExpr)
  | [] => none
  | (k, d) :: es => if k = .text name then some (readTypeIn [] (place.field name) d) else readTypeUnder place name es

/-- The types under a name; nothing stands for the empty list. -/
def readTypesUnder (place : Place) (name : String) : List (Scalar × Document) → Except Fault (List TypeExpr)
  | [] => .ok []
  | (k, d) :: es =>
    if k = .text name then readTypeList (place.field name) d else readTypesUnder place name es

end

def readType : Reader TypeExpr := readTypeIn []

end ProgramFacts
