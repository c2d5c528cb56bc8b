import ProgramFacts.Document.Shown

/-!
# Reading a document

What all readers share: the place of a node in its document, the faults that readers find there, and the fields
of a mapping.
-/

namespace ProgramFacts

/-- One step down into a document. -/
inductive Step
  | key (k : Scalar)
  | index (i : Nat)
deriving DecidableEq

/-- A place in a document: the name of its root and the steps down from there. -/
structure Place where
  root : String := "$"
  steps : List Step := []
deriving DecidableEq

def Step.text : Step → String
  | .key k => "." ++ k.asText
  | .index i => "[" ++ toString i ++ "]"

namespace Place

def text (p : Place) : String := p.steps.foldl (fun acc s => acc ++ s.text) p.root

def down (p : Place) (s : Step) : Place := { p with steps := p.steps ++ [s] }

def field (p : Place) (name : String) : Place := p.down (.key (.text name))

def item (p : Place) (i : Nat) : Place := p.down (.index i)

end Place

/-- What is wrong at a place. -/
inductive Problem
  | notMapping (kind : String)
  | notList (kind : String)
  | missing (key : String)
  | unboundedWildcard (shown : String)
  | unknownWildcard (shown : String)
  | unknownType (shown : String)
  | unknownValue (shown : String)
deriving DecidableEq

def Problem.message : Problem → String
  | .notMapping kind => "expected a mapping, got " ++ kind
  | .notList kind => "expected a list, got " ++ kind
  | .missing key => "missing required key '" ++ key ++ "'"
  | .unboundedWildcard shown => "wildcard " ++ shown ++ " needs a 'bound'"
  | .unknownWildcard shown => "unknown wildcard bound " ++ shown
  | .unknownType shown => "unrecognized type expression " ++ shown
  | .unknownValue shown => "unrecognized annotation value " ++ shown

/-- Why a document is no model. -/
inductive Fault
  /-- A place has a problem. -/
  | at (place : Place) (problem : Problem)
  /-- An integer with too many digits stands where a text is wanted. -/
  | oversized
  /-- Something that holds itself is read without end. -/
  | endless
deriving DecidableEq

namespace Fault

def message : Fault → String
  | .at place problem => place.text ++ ": " ++ problem.message
  | .oversized => Numeral.unwritableMessage
  | .endless => "maximum recursion depth exceeded"

/-- The place that a fault names. -/
def place? : Fault → Option Place
  | .at place _ => some place
  | _ => none

end Fault

/-- A document is not of the kind that was wanted. -/
def Document.misfit (place : Place) (problem : String → Problem) : Document → Fault
  | .endless => .endless
  | d => .at place (problem d.kindName)

/-- The text that stands for a document. -/
def Document.readText (d : Document) : Except Fault String :=
  match d.asText? with
  | some s => .ok s
  | none => .error .oversized

/-- A problem that shows a document, found inside the knots with the given labels. -/
def Document.showing (place : Place) (problem : String → Problem) (labels : List Nat) (d : Document) : Fault :=
  if d.isWritable then .at place (problem (d.shownBelow labels)) else .oversized

/-- A reader of a node at a place. -/
abbrev Reader (α : Type) := Place → Document → Except Fault α

/-- Reads the nodes of a list, the first of which has the given index. -/
def readItems {α : Type} (read : Reader α) (place : Place) (i : Nat) : List Document → Except Fault (List α)
  | [] => .ok []
  | d :: ds => do
    let a ← read (place.item i) d
    let as ← readItems read place (i + 1) ds
    pure (a :: as)

/-- The entries of a mapping. -/
def readMapping (place : Place) : Document → Except Fault Entries
  | .mapping es => .ok es
  | .knot _ d => readMapping place d
  | d => .error (d.misfit place .notMapping)

/-- Reads a list; null stands for the empty list. -/
def readList {α : Type} (read : Reader α) (place : Place) : Document → Except Fault (List α)
  | .scalar .null => .ok []
  | .list ds => readItems read place 0 ds
  | .knot _ d => readList read place d
  | d => .error (d.misfit place .notList)

namespace Entries

/-- The value under a name, or null. -/
def getNull (es : Entries) (name : String) : Document := (get? es name).getD .null

/-- Reads the list under a name; it may be missing. -/
def readEach {α : Type} (es : Entries) (read : Reader α) (place : Place) (name : String) :
    Except Fault (List α) :=
  readList read (place.field name) (es.getNull name)

/-- The list of texts under a name. -/
def readTexts (es : Entries) (place : Place) (name : String) : Except Fault (List String) :=
  es.readEach (fun _ d => d.readText) place name

/-- The text that must stand under a name. -/
def readText (es : Entries) (place : Place) (name : String) : Except Fault String :=
  match es.getNull name with
  | .scalar .null => .error (.at place (.missing name))
  | d => d.readText

/-- The node that must stand under a name. -/
def readNode (es : Entries) (place : Place) (name : String) : Except Fault Document :=
  match es.get? name with
  | none => .error (.at place (.missing name))
  | some d => .ok d

end Entries

end ProgramFacts
