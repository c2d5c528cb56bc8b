import ProgramFacts.Document.Shown
import ProgramFacts.Text.LetterCase

/-!
# Forms

A model that is built by hand may hold anything anywhere: a text as a type, a parameter as a member, a kind that
is a number. A form is a part of such a model. Every sort of part has its fields, in order, but what stands in
them is not looked at before it is needed.

A form becomes a text as a document does: `asText` where a name is wanted, `shown` in a message. `asText?` and `shown?`
are the texts that can be had, since there are none of integers with too many digits.
-/

namespace ProgramFacts

/-- The sorts of parts that models have. -/
inductive FormSort
  | declaredType
  | primitiveType
  | arrayType
  | typeVariable
  | wildcardType
  | noType
  | otherType
  | charValue
  | enumConstant
  | otherValue
  | note
  | typeParameter
  | parameter
  | recordComponent
  | variable
  | executable
  | type
  | package
  | requires
  | exports
  | uses
  | provides
  | module
  | program
deriving DecidableEq

/-- A part of a model, or a datum in the place of one. -/
inductive Form
  | scalar (s : Scalar)
  | tuple (items : List Form)
  | record (sort : FormSort) (fields : List (String × Form))

namespace Form

instance : Inhabited Form := ⟨.scalar .null⟩

mutual

/-- Whether two forms are the same. -/
def same : Form → Form → Bool
  | .scalar s, .scalar t => s == t
  | .tuple fs, .tuple gs => sameItems fs gs
  | .record s fs, .record t gs => s == t && sameFields fs gs
  | _, _ => false

def sameItems : List Form → List Form → Bool
  | [], [] => true
  | f :: fs, g :: gs => f.same g && sameItems fs gs
  | _, _ => false

def sameFields : List (String × Form) → List (String × Form) → Bool
  | [], [] => true
  | (name, f) :: fs, (name', g) :: gs => name == name' && f.same g && sameFields fs gs
  | _, _ => false

end

instance : BEq Form := ⟨same⟩

def null : Form := .scalar .null
def text (s : String) : Form := .scalar (.text s)

/-- Nothing in a place for several. -/
def empty : Form := .tuple []

end Form

namespace FormSort

/-- The word for a sort in messages. -/
def label : FormSort → String
  | .declaredType => "DeclaredType"
  | .primitiveType => "PrimitiveType"
  | .arrayType => "ArrayType"
  | .typeVariable => "TypeVariable"
  | .wildcardType => "WildcardType"
  | .noType => "NoType"
  | .otherType => "OtherType"
  | .charValue => "CharValue"
  | .enumConstant => "EnumConstant"
  | .otherValue => "OtherValue"
  | .note => "Annotation"
  | .typeParameter => "TypeParameter"
  | .parameter => "Parameter"
  | .recordComponent => "RecordComponent"
  | .variable => "VariableSymbol"
  | .executable => "ExecutableSymbol"
  | .type => "TypeSymbol"
  | .package => "PackageSymbol"
  | .requires => "RequiresDirective"
  | .exports => "ExportsDirective"
  | .uses => "UsesDirective"
  | .provides => "ProvidesDirective"
  | .module => "ModuleSymbol"
  | .program => "ProgramModel"

def all : List FormSort :=
  [.declaredType, .primitiveType, .arrayType, .typeVariable, .wildcardType, .noType, .otherType, .charValue,
    .enumConstant, .otherValue, .note, .typeParameter, .parameter, .recordComponent, .variable, .executable,
    .type, .package, .requires, .exports, .uses, .provides, .module, .program]

/-- The sort that a word is for. -/
def ofLabel? (label : String) : Option FormSort := all.find? (·.label == label)

/-- The form of no type, such as the result of a procedure. -/
def void : Form := .record .noType [("kind", .text "void")]

/-- A field that must be given. -/
def required (name : String) : String × Option Form := (name, none)

/-- A field that holds several things, and none if it is not given. -/
def several (name : String) : String × Option Form := (name, some .empty)

/-- A field that holds something or null. -/
def optional (name : String) : String × Option Form := (name, some .null)

/-- The fields of a sort, with what stands in those that are not given. -/
def fields : FormSort → List (String × Option Form)
  | .declaredType => [required "qualified_name", several "type_arguments"]
  | .primitiveType => [required "kind"]
  | .arrayType => [required "component"]
  | .typeVariable => [required "name"]
  | .wildcardType => [optional "extends_bound", optional "super_bound"]
  | .noType => [("kind", some (.text "void"))]
  | .otherType | .otherValue => [required "kind", ("description", some (.text ""))]
  | .charValue => [required "value"]
  | .enumConstant => [required "enclosing", required "name"]
  | .note => [required "qualified_name", several "arguments"]
  | .typeParameter => [required "name", several "bounds", several "annotations"]
  | .parameter => [required "name", required "type", several "modifiers", several "annotations"]
  | .recordComponent => [required "name", required "type", several "annotations"]
  | .variable =>
    [required "kind", required "name", required "type", several "modifiers", several "annotations", optional "doc"]
  | .executable =>
    [required "kind", required "name", several "modifiers", several "type_parameters", ("return_type", some void),
      several "parameters", several "thrown_types", several "annotations", optional "doc"]
  | .type =>
    [required "kind", required "name", several "modifiers", several "type_parameters", optional "superclass",
      several "interfaces", several "permitted_subclasses", several "record_components", several "members",
      several "annotations", optional "doc"]
  | .package => [required "name", several "members", several "annotations", optional "doc"]
  | .requires => [required "module", several "modifiers", several "annotations"]
  | .exports => [required "package", several "target_modules", several "annotations"]
  | .uses => [required "service"]
  | .provides => [required "service", several "implementations", several "annotations"]
  | .module => [required "name", several "modifiers", several "directives", several "packages"]
  | .program => [several "modules", several "packages"]

/-- Whether parts of a sort are types. -/
def isType : FormSort → Bool
  | .declaredType | .primitiveType | .arrayType | .typeVariable | .wildcardType | .noType | .otherType => true
  | _ => false

end FormSort

/-- Why a part cannot be built. -/
inductive BuildFault
  /-- Fields that must be given are not. -/
  | missing (sort : FormSort) (names : List String)
  /-- A field is given that the sort does not have. -/
  | unexpected (sort : FormSort) (name : String)
deriving DecidableEq

namespace BuildFault

/-- Names in a sentence. -/
def enumerated : List String → String
  | [] => ""
  | [a] => Text.quoted a
  | [a, b] => Text.quoted a ++ " and " ++ Text.quoted b
  | names => Text.joinWith ", " (names.dropLast.map Text.quoted) ++ ", and " ++ Text.quoted (names.getLast?.getD "")

def message : BuildFault → String
  | .missing sort names =>
    sort.label ++ ".__init__() missing " ++ toString names.length ++ " required positional argument" ++
      (if names.length = 1 then "" else "s") ++ ": " ++ enumerated names
  | .unexpected sort name => sort.label ++ ".__init__() got an unexpected keyword argument " ++ Text.quoted name

end BuildFault

namespace Form

/-- The part of a sort with the fields given, in the order of the sort. -/
def build (sort : FormSort) (given : List (String × Form)) : Except BuildFault Form :=
  let names := sort.fields.map (·.1)
  match given.find? fun g => g.1 ∉ names with
  | some g => .error (.unexpected sort g.1)
  | none =>
    let filled := sort.fields.map fun f => (f.1, (given.lookup f.1).or f.2)
    match filled.filter (·.2.isNone) with
    | [] => .ok (.record sort (filled.map fun f => (f.1, f.2.getD .null)))
    | missing => .error (.missing sort (missing.map (·.1)))

/-- A part that is known by its kind and its description alone. -/
def ofKind (sort : FormSort) (kind description : String) : Form :=
  .record sort [("kind", .text kind), ("description", .text description)]

/-- What stands in a field, if there is such a field. -/
def field? (f : Form) (name : String) : Option Form :=
  match f with
  | .record _ fields => fields.lookup name
  | _ => none

/-- What stands for a form as its kind: the field of that name, or else the form itself. -/
def kindOrSelf (f : Form) : Form := (f.field? "kind").getD f

/-- The text, if it is one. -/
def text? : Form → Option String
  | .scalar (.text s) => some s
  | _ => none

/-- The word for what it is. -/
def kindName : Form → String
  | .scalar s => (Document.scalar s).kindName
  | .tuple _ => "tuple"
  | .record sort _ => sort.label

/-- Whether it counts as given: null, zero, and what is empty does not. -/
def isGiven : Form → Bool
  | .scalar s => (Document.scalar s).isGiven
  | .tuple items => !items.isEmpty
  | .record _ _ => true

mutual

/-- The form in a message: parts with all of their fields. -/
def shown : Form → String
  | .scalar s => s.shown
  | .tuple items => shownTuple (shownItems items)
  | .record sort fields => sort.label ++ "(" ++ Text.joinWith ", " (shownFields fields) ++ ")"

def shownItems : List Form → List String
  | [] => []
  | f :: fs => f.shown :: shownItems fs

def shownFields : List (String × Form) → List String
  | [] => []
  | (name, f) :: fs => (name ++ "=" ++ f.shown) :: shownFields fs

end

/-- The form where a text is wanted. -/
def asText : Form → String
  | .scalar s => s.asText
  | f => f.shown

/-- What stands for a form in a description of it: its own description, or else the form itself. -/
def detail (f : Form) : Form := ((f.field? "description").filter isGiven).getD f

/-- What a warning says of something that has no shape in a fact: its kind, if it has one, with its description,
or with the thing itself in place of one that is not given. -/
def describe (f : Form) : String :=
  match f.field? "kind" with
  | none | some (.scalar .null) => f.kindName ++ " (" ++ f.shown ++ ")"
  | some kind => kind.asText ++ " for " ++ f.detail.asText

mutual

/-- Whether no integer in the form has too many digits, so that a text can be made of it. -/
def isWritable : Form → Bool
  | .scalar s => s.isWritable
  | .tuple items => areWritable items
  | .record _ fields => areFieldsWritable fields

def areWritable : List Form → Bool
  | [] => true
  | f :: fs => f.isWritable && areWritable fs

def areFieldsWritable : List (String × Form) → Bool
  | [] => true
  | (_, f) :: fs => f.isWritable && areFieldsWritable fs

end

/-- Whether what a warning says of a form can be made a text. -/
def isDescribable (f : Form) : Bool :=
  match f.field? "kind" with
  | none | some (.scalar .null) => f.isWritable
  | some kind => kind.isWritable && f.detail.isWritable

/-- The form where a text is wanted, if it can be made one. -/
def asText? (f : Form) : Option String := if f.isWritable then some f.asText else none

/-- The form in a message, if it can be shown. -/
def shown? (f : Form) : Option String := if f.isWritable then some f.shown else none

/-- What a warning says of a form, if that can be made a text. -/
def describe? (f : Form) : Option String := if f.isDescribable then some f.describe else none

/-- The name of its form as a supertype. -/
def formName (f : Form) : String :=
  match f, f.field? "kind" with
  | .record .declaredType _, _ => "declared"
  | .record .arrayType _, _ => "array"
  | .record .typeVariable _, _ => "typevar"
  | .record .wildcardType _, _ => "wildcard"
  | .record .primitiveType _, some (.scalar (.text kind)) => kind
  | .record .noType _, some (.scalar (.text kind)) => kind
  | .record .otherType _, some (.scalar (.text kind)) => Text.lower kind
  | f, _ => Text.lower f.kindName

mutual

/-- How many levels there are below. -/
def depth : Form → Nat
  | .scalar _ => 0
  | .tuple items => depthItems items + 1
  | .record _ fields => depthFields fields + 1

def depthItems : List Form → Nat
  | [] => 0
  | f :: fs => max f.depth (depthItems fs)

def depthFields : List (String × Form) → Nat
  | [] => 0
  | (_, f) :: fs => max f.depth (depthFields fs)

end

end Form

end ProgramFacts
