import ProgramFacts.Model.Declaration

/-!
# Checked parts as forms

A declaration of the model is also a form: a record of its sort that has its parts in the fields. What is no type or
no value in the model may be any form, so that a declaration can be told from its form only if there is nothing of
that kind in it. Such declarations are proper.

Forms have scalars for documentation, and nothing in place of other documents.
-/

namespace ProgramFacts

/-! ## Types -/

namespace TypeExpr

mutual

def asForm : TypeExpr → Form
  | .declared n ts => .record .declaredType [("qualified_name", .text n), ("type_arguments", .tuple (asForms ts))]
  | .primitive k => .record .primitiveType [("kind", .text k)]
  | .array t => .record .arrayType [("component", t.asForm)]
  | .typeVariable n => .record .typeVariable [("name", .text n)]
  | .wildcard below above =>
    .record .wildcardType [("extends_bound", asFormOrNull below), ("super_bound", asFormOrNull above)]
  | .noType k => .record .noType [("kind", .text k)]
  | .other k d => .ofKind .otherType k d
  | .stray f => f

def asForms : List TypeExpr → List Form
  | [] => []
  | t :: ts => t.asForm :: asForms ts

def asFormOrNull : Option TypeExpr → Form
  | none => .null
  | some t => t.asForm

end

mutual

/-- Whether everything in the type is a type. -/
def isProper : TypeExpr → Bool
  | .declared _ ts => areProper ts
  | .array t => t.isProper
  | .wildcard below above => isProperOrNone below && isProperOrNone above
  | .primitive _ | .typeVariable _ | .noType _ | .other _ _ => true
  | .stray _ => false

def areProper : List TypeExpr → Bool
  | [] => true
  | t :: ts => t.isProper && areProper ts

def isProperOrNone : Option TypeExpr → Bool
  | none => true
  | some t => t.isProper

end

theorem asForms_eq_map (ts : List TypeExpr) : asForms ts = ts.map asForm := by
  induction ts with
  | nil => rfl
  | cons t ts ih => rw [asForms, ih, List.map_cons]

theorem areProper_eq_all (ts : List TypeExpr) : areProper ts = ts.all isProper := by
  induction ts with
  | nil => rfl
  | cons t ts ih => rw [areProper, ih, List.all_cons]

end TypeExpr

/-! ## Values and annotations -/

namespace Value

mutual

def asForm : Value → Form
  | .bool b => .scalar (.bool b)
  | .integer n => .scalar (.integer n)
  | .number x => .scalar (.number x)
  | .text s => .text s
  | .char s => .record .charValue [("value", .text s)]
  | .enumConstant e n => .record .enumConstant [("enclosing", .text e), ("name", .text n)]
  | .nested n vs => .record .note [("qualified_name", .text n), ("arguments", .tuple (argumentForms vs))]
  | .list vs => .tuple (asForms vs)
  | .type t => t.asForm
  | .other k d => .ofKind .otherValue k d
  | .stray f => f

def asForms : List Value → List Form
  | [] => []
  | v :: vs => v.asForm :: asForms vs

def argumentForms : List (String × Value) → List Form
  | [] => []
  | (n, v) :: vs => .tuple [.text n, v.asForm] :: argumentForms vs

end

mutual

/-- Whether everything in the value is a value or a type. -/
def isProper : Value → Bool
  | .nested _ vs => areArgumentsProper vs
  | .list vs => areProper vs
  | .type t => t.isProper
  | .bool _ | .integer _ | .number _ | .text _ | .char _ | .enumConstant _ _ | .other _ _ => true
  | .stray _ => false

def areProper : List Value → Bool
  | [] => true
  | v :: vs => v.isProper && areProper vs

def areArgumentsProper : List (String × Value) → Bool
  | [] => true
  | (_, v) :: vs => v.isProper && areArgumentsProper vs

end

/-- The form of an argument: its label and its value. -/
def argumentForm (a : String × Value) : Form := .tuple [.text a.1, a.2.asForm]

theorem asForms_eq_map (vs : List Value) : asForms vs = vs.map asForm := by
  induction vs with
  | nil => rfl
  | cons v vs ih => rw [asForms, ih, List.map_cons]

theorem argumentForms_eq_map (vs : List (String × Value)) : argumentForms vs = vs.map argumentForm := by
  induction vs with
  | nil => rfl
  | cons v vs ih =>
    rw [argumentForms, ih, List.map_cons]
    rfl

end Value

def Annotation.asForm (a : Annotation) : Form :=
  .record .note [("qualified_name", .text a.name), ("arguments", .tuple (Value.argumentForms a.arguments))]

def Annotation.isProper (a : Annotation) : Bool := Value.areArgumentsProper a.arguments

/-! ## Declarations -/

/-- Names in a place for several. -/
def textForms (names : List String) : Form := .tuple (names.map .text)

def noteForms (as : List Annotation) : Form := .tuple (as.map Annotation.asForm)

/-- A document in the place of documentation. -/
def Document.asForm : Document → Form
  | .scalar s => .scalar s
  | _ => .null

def TypeParameter.asForm (p : TypeParameter) : Form :=
  .record .typeParameter
    [("name", .text p.name), ("bounds", .tuple (TypeExpr.asForms p.bounds)), ("annotations", noteForms p.annotations)]

def TypeParameter.isProper (p : TypeParameter) : Bool :=
  TypeExpr.areProper p.bounds && p.annotations.all Annotation.isProper

def Parameter.asForm (p : Parameter) : Form :=
  .record .parameter
    [("name", .text p.name), ("type", p.type.asForm), ("modifiers", textForms p.modifiers),
      ("annotations", noteForms p.annotations)]

def Parameter.isProper (p : Parameter) : Bool := p.type.isProper && p.annotations.all Annotation.isProper

def RecordComponent.asForm (c : RecordComponent) : Form :=
  .record .recordComponent
    [("name", .text c.name), ("type", c.type.asForm), ("annotations", noteForms c.annotations)]

def RecordComponent.isProper (c : RecordComponent) : Bool := c.type.isProper && c.annotations.all Annotation.isProper

def Variable.asForm (v : Variable) : Form :=
  .record .variable
    [("kind", .text v.kind), ("name", .text v.name), ("type", v.type.asForm), ("modifiers", textForms v.modifiers),
      ("annotations", noteForms v.annotations), ("doc", v.doc.asForm)]

def Variable.isProper (v : Variable) : Bool := v.type.isProper && v.annotations.all Annotation.isProper

def Executable.asForm (e : Executable) : Form :=
  .record .executable
    [("kind", .text e.kind), ("name", .text e.name), ("modifiers", textForms e.modifiers),
      ("type_parameters", .tuple (e.typeParameters.map TypeParameter.asForm)), ("return_type", e.returnType.asForm),
      ("parameters", .tuple (e.parameters.map Parameter.asForm)),
      ("thrown_types", .tuple (TypeExpr.asForms e.thrownTypes)), ("annotations", noteForms e.annotations),
      ("doc", e.doc.asForm)]

def Executable.isProper (e : Executable) : Bool :=
  e.typeParameters.all TypeParameter.isProper && e.returnType.isProper && e.parameters.all Parameter.isProper &&
    TypeExpr.areProper e.thrownTypes && e.annotations.all Annotation.isProper

/-- The form of a type, given those of its members. -/
def TypeHead.asForm (t : TypeHead) (members : List Form) : Form :=
  .record .type
    [("kind", .text t.kind), ("name", .text t.name), ("modifiers", textForms t.modifiers),
      ("type_parameters", .tuple (t.typeParameters.map TypeParameter.asForm)),
      ("superclass", TypeExpr.asFormOrNull t.superclass), ("interfaces", .tuple (TypeExpr.asForms t.interfaces)),
      ("permitted_subclasses", textForms t.permitted),
      ("record_components", .tuple (t.components.map RecordComponent.asForm)), ("members", .tuple members),
      ("annotations", noteForms t.annotations), ("doc", t.doc.asForm)]

def TypeHead.isProper (t : TypeHead) : Bool :=
  t.typeParameters.all TypeParameter.isProper && TypeExpr.isProperOrNone t.superclass &&
    TypeExpr.areProper t.interfaces && t.components.all RecordComponent.isProper &&
    t.annotations.all Annotation.isProper

/-- Whether a form is of a sort that declarations are of. -/
def Form.isSymbol : Form → Bool
  | .record .type _ | .record .executable _ | .record .variable _ => true
  | _ => false

namespace Declaration

mutual

def asForm : Declaration → Form
  | .ofType t ds => t.asForm (asForms ds)
  | .ofExecutable e => e.asForm
  | .ofVariable v => v.asForm
  | .stray f => f

def asForms : List Declaration → List Form
  | [] => []
  | d :: ds => d.asForm :: asForms ds

end

mutual

/-- Whether everything in the declaration is what it stands for. -/
def isProper : Declaration → Bool
  | .ofType t ds => t.isProper && areProper ds
  | .ofExecutable e => e.isProper
  | .ofVariable v => v.isProper
  | .stray f => !f.isSymbol

def areProper : List Declaration → Bool
  | [] => true
  | d :: ds => d.isProper && areProper ds

end

end Declaration

/-! ## Depth -/

namespace Form

/-- What stands in a field needs less fuel than the record. -/
theorem depth_field {s : FormSort} {fields : List (String × Form)} {fuel : Nat}
    (deep : (record s fields).depth < fuel + 1) (name : String) {g : Form} (found : fields.lookup name = some g) :
    g.depth < fuel := by
  suffices le : g.depth ≤ depthFields fields from Nat.lt_of_le_of_lt le (Nat.lt_of_succ_lt_succ deep)
  clear deep
  induction fields with
  | nil => cases found
  | cons field fields ih =>
    rw [List.lookup_cons] at found
    split at found
    · cases found
      exact Nat.le_max_left ..
    · exact Nat.le_trans (ih found) (Nat.le_max_right ..)

/-- Each of several things needs less fuel than all of them. -/
theorem depth_item {fs : List Form} {fuel : Nat} (deep : (tuple fs).depth < fuel + 1) {f : Form} (member : f ∈ fs) :
    f.depth < fuel := by
  suffices le : f.depth ≤ depthItems fs from Nat.lt_of_le_of_lt le (Nat.lt_of_succ_lt_succ deep)
  clear deep
  induction member with
  | head => exact Nat.le_max_left ..
  | tail _ _ ih => exact Nat.le_trans ih (Nat.le_max_right ..)

end Form

end ProgramFacts
