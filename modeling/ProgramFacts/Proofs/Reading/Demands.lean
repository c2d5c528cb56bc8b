import ProgramFacts.Model.Program
import ProgramFacts.Proofs.Reading.Places
import ProgramFacts.Text.LetterCase

/-!
# What a model owes to its document

Some parts of a document become parts of a model as they are: the keys that name an annotation's arguments, the integers
among the values, and documentation. What is asked of them is a parameter here (`Demands`), both for documents and for
models. All else that is true of a model that was read, such as the kinds of its declarations and the order of its
directives, the readers themselves see to; it is part of what meeting demands is for a model.
-/

namespace ProgramFacts

/-- What is asked of the names of an annotation's arguments, of the integers and of documentation. No names at all and
no documentation are always as they should be. -/
structure Demands where
  names : List String → Bool := fun _ => true
  integer : Int → Bool := fun _ => true
  doc : Document → Bool := fun _ => true
  names_nil : names [] = true := by rfl
  doc_null : doc .null = true := by rfl

/-! ## Documents -/

namespace Document

mutual

/-- All nodes of a document, itself first. -/
def nodes : Document → List Document
  | .scalar s => [.scalar s]
  | .list ds => .list ds :: nodesOf ds
  | .tuple ds => .tuple ds :: nodesOf ds
  | .set ss => [.set ss]
  | .mapping es => .mapping es :: nodesUnder es
  | .knot l d => .knot l d :: d.nodes
  | .endless => [.endless]

def nodesOf : List Document → List Document
  | [] => []
  | d :: ds => d.nodes ++ nodesOf ds

def nodesUnder : List (Scalar × Document) → List Document
  | [] => []
  | (_, d) :: es => d.nodes ++ nodesUnder es

end

theorem nodesOf_eq_flatMap (ds : List Document) : nodesOf ds = ds.flatMap nodes := by
  induction ds with
  | nil => rfl
  | cons d ds ih => rw [nodesOf, ih, List.flatMap_cons]

theorem nodesUnder_eq_flatMap (es : Entries) : nodesUnder es = es.flatMap fun e => e.2.nodes := by
  induction es with
  | nil => rfl
  | cons e es ih => rw [nodesUnder, ih, List.flatMap_cons]

section AllNodes

variable (check : Document → Bool)

theorem all_nodes_list (ds : List Document) :
    (Document.list ds).nodes.all check = (check (.list ds) && ds.all fun d => d.nodes.all check) := by
  rw [nodes, nodesOf_eq_flatMap, List.all_cons, List.all_flatMap]

theorem all_nodes_tuple (ds : List Document) :
    (Document.tuple ds).nodes.all check = (check (.tuple ds) && ds.all fun d => d.nodes.all check) := by
  rw [nodes, nodesOf_eq_flatMap, List.all_cons, List.all_flatMap]

theorem all_nodes_mapping (es : Entries) :
    (Document.mapping es).nodes.all check = (check (.mapping es) && es.all fun e => e.2.nodes.all check) := by
  rw [nodes, nodesUnder_eq_flatMap, List.all_cons, List.all_flatMap]

theorem all_nodes_knot (l : Nat) (d : Document) :
    (Document.knot l d).nodes.all check = (check (.knot l d) && d.nodes.all check) := by
  rw [nodes, List.all_cons]

/-- What is so of every node whose own nodes pass a check is so of all nodes of a document that pass it. -/
theorem all_nodes_imp {check other : Document → Bool} (imp : ∀ d, d.nodes.all check = true → other d = true)
    (d : Document) (all : d.nodes.all check = true) : d.nodes.all other = true := by
  have here := imp d all
  induction d using induction_on_size with
  | step d ih =>
    cases d with
    | scalar s => simpa [nodes] using here
    | set ss => simpa [nodes] using here
    | endless => simpa [nodes] using here
    | knot l d =>
      rw [all_nodes_knot, Bool.and_eq_true] at all
      rw [all_nodes_knot, here, Bool.true_and]
      exact ih d (by rw [knot.sizeOf_spec]; omega) all.2 (imp d all.2)
    | list ds =>
      rw [all_nodes_list, Bool.and_eq_true, List.all_eq_true] at all
      rw [all_nodes_list, here, Bool.true_and, List.all_eq_true]
      intro x there
      have smaller := List.sizeOf_lt_of_mem there
      exact ih x (by rw [list.sizeOf_spec]; omega) (all.2 x there) (imp x (all.2 x there))
    | tuple ds =>
      rw [all_nodes_tuple, Bool.and_eq_true, List.all_eq_true] at all
      rw [all_nodes_tuple, here, Bool.true_and, List.all_eq_true]
      intro x there
      have smaller := List.sizeOf_lt_of_mem there
      exact ih x (by rw [tuple.sizeOf_spec]; omega) (all.2 x there) (imp x (all.2 x there))
    | mapping es =>
      rw [all_nodes_mapping, Bool.and_eq_true, List.all_eq_true] at all
      rw [all_nodes_mapping, here, Bool.true_and, List.all_eq_true]
      intro e there
      have inList := List.sizeOf_lt_of_mem there
      have inPair : sizeOf e = 1 + sizeOf e.1 + sizeOf e.2 := Prod.mk.sizeOf_spec e.1 e.2
      exact ih e.2 (by rw [mapping.sizeOf_spec]; omega) (all.2 e there) (imp e.2 (all.2 e there))

end AllNodes

/-- Whether a node is as demanded. -/
def answers (q : Demands) : Document → Bool
  | .scalar (.integer n) => q.integer n
  | .mapping es => q.names (es.map fun e => e.1.asText) && es.all fun e => e.1 != .text "doc" || q.doc e.2
  | _ => true

/-- Whether all nodes are as demanded. -/
def meets (q : Demands) (d : Document) : Bool := d.nodes.all (answers q)

variable {q : Demands} {d x : Document} {ds : List Document} {es : Entries}

theorem meets_of_mem (met : (Document.list ds).meets q = true) (found : x ∈ ds) : x.meets q = true := by
  rw [meets, all_nodes_list, Bool.and_eq_true] at met
  exact List.all_eq_true.1 met.2 x found

theorem meets_under {k : Scalar} (met : (Document.mapping es).meets q = true) (found : (k, x) ∈ es) :
    x.meets q = true := by
  rw [meets, all_nodes_mapping, Bool.and_eq_true] at met
  exact List.all_eq_true.1 met.2 (k, x) found

theorem meets_bare (met : d.meets q = true) : d.bare.meets q = true := by
  fun_induction bare d with
  | case1 l d ih =>
    apply ih
    rw [meets, all_nodes_knot, Bool.and_eq_true] at met
    exact met.2
  | case2 d => exact met

theorem answers_of_meets (met : d.meets q = true) : d.answers q = true := by
  have itself : d ∈ d.nodes := by cases d <;> simp [nodes]
  exact List.all_eq_true.1 met d itself

/-- The keys of a mapping are as names should be. -/
theorem names_of_meets (met : (Document.mapping es).meets q = true) :
    q.names (es.map fun e => e.1.asText) = true := by
  have itself := answers_of_meets met
  rw [answers, Bool.and_eq_true] at itself
  exact itself.1

end Document

namespace Entries

variable {es : Entries} {name : String} {d : Document}

theorem mem_of_get? (found : es.get? name = some d) : (.text name, d) ∈ es := by
  induction es with
  | nil => cases found
  | cons e es ih =>
    obtain ⟨k, v⟩ := e
    rw [get?] at found
    split at found
    · next same =>
      cases found
      rw [same]
      exact List.mem_cons_self
    · exact List.mem_cons_of_mem _ (ih found)

/-- Documentation that is given is as it should be, and so is none. -/
theorem doc_of_meets {q : Demands} (met : (Document.mapping es).meets q = true) : q.doc (es.getNull "doc") = true := by
  rw [getNull]
  cases found : es.get? "doc" with
  | none => exact q.doc_null
  | some d =>
    have itself := Document.answers_of_meets met
    rw [Document.answers, Bool.and_eq_true] at itself
    have entry := List.all_eq_true.1 itself.2 _ (mem_of_get? found)
    simpa using entry

end Entries

/-! ## Types, values and annotations -/

mutual

/-- Whether everything in the type is a type, and every wildcard has one bound at most. -/
def TypeExpr.isLoadable : TypeExpr → Bool
  | .declared _ ts => TypeExpr.areLoadable ts
  | .array t => t.isLoadable
  | .wildcard none none => true
  | .wildcard (some t) none => t.isLoadable
  | .wildcard none (some t) => t.isLoadable
  | .wildcard (some _) (some _) => false
  | .primitive _ | .typeVariable _ | .noType _ | .other _ _ => true
  | .stray _ => false

def TypeExpr.areLoadable : List TypeExpr → Bool
  | [] => true
  | t :: ts => t.isLoadable && TypeExpr.areLoadable ts

end

theorem TypeExpr.areLoadable_eq_all (ts : List TypeExpr) : areLoadable ts = ts.all isLoadable := by
  induction ts with
  | nil => rfl
  | cons t ts ih => rw [areLoadable, ih, List.all_cons]

mutual

/-- Whether everything in the value is a value, as demanded. -/
def Value.meets (q : Demands) : Value → Bool
  | .integer n => q.integer n
  | .nested _ vs => q.names (vs.map Prod.fst) && Value.argumentsMeet q vs
  | .list vs => Value.allMeet q vs
  | .type t => t.isLoadable
  | .bool _ | .number _ | .text _ | .char _ | .enumConstant _ _ | .other _ _ => true
  | .stray _ => false

def Value.allMeet (q : Demands) : List Value → Bool
  | [] => true
  | v :: vs => v.meets q && Value.allMeet q vs

def Value.argumentsMeet (q : Demands) : List (String × Value) → Bool
  | [] => true
  | (_, v) :: vs => v.meets q && Value.argumentsMeet q vs

end

theorem Value.allMeet_eq_all (q : Demands) (vs : List Value) : allMeet q vs = vs.all (meets q) := by
  induction vs with
  | nil => rfl
  | cons v vs ih => rw [allMeet, ih, List.all_cons]

/-- Whether the names of an annotation's arguments and their values are as demanded. -/
def Annotation.meets (q : Demands) (a : Annotation) : Bool :=
  q.names (a.arguments.map Prod.fst) && Value.argumentsMeet q a.arguments

/-! ## Declarations -/

namespace TypeParameter

def meets (q : Demands) (p : TypeParameter) : Bool :=
  p.bounds.all TypeExpr.isLoadable && p.annotations.all (·.meets q)

end TypeParameter

namespace Parameter

def meets (q : Demands) (p : Parameter) : Bool := p.type.isLoadable && p.annotations.all (·.meets q)

end Parameter

namespace RecordComponent

def meets (q : Demands) (c : RecordComponent) : Bool := c.type.isLoadable && c.annotations.all (·.meets q)

end RecordComponent

/-- Whether a kind is one of types: in upper case, and none of executables or variables. -/
def isTypeKind (kind : String) : Bool :=
  decide (Text.upper kind = kind) && decide (kind ∉ executableKinds) && decide (kind ∉ variableKinds)

def Variable.meets (q : Demands) (v : Variable) : Bool :=
  decide (v.kind ∈ variableKinds) && v.type.isLoadable && v.annotations.all (·.meets q) && q.doc v.doc

def Executable.meets (q : Demands) (e : Executable) : Bool :=
  decide (e.kind ∈ executableKinds) && e.typeParameters.all (TypeParameter.meets q) && e.returnType.isLoadable &&
    e.parameters.all (Parameter.meets q) && e.thrownTypes.all TypeExpr.isLoadable &&
    e.annotations.all (·.meets q) && q.doc e.doc

def TypeHead.meets (q : Demands) (t : TypeHead) : Bool :=
  isTypeKind t.kind && t.typeParameters.all (TypeParameter.meets q) && t.superclass.all TypeExpr.isLoadable &&
    t.interfaces.all TypeExpr.isLoadable && t.components.all (RecordComponent.meets q) &&
    t.annotations.all (·.meets q) && q.doc t.doc

mutual

def Declaration.meets (q : Demands) : Declaration → Bool
  | .ofType t ds => t.meets q && Declaration.allMeet q ds
  | .ofExecutable e => e.meets q
  | .ofVariable v => v.meets q
  | .stray _ => false

def Declaration.allMeet (q : Demands) : List Declaration → Bool
  | [] => true
  | d :: ds => d.meets q && Declaration.allMeet q ds

end

theorem Declaration.allMeet_eq_all (q : Demands) (ds : List Declaration) : allMeet q ds = ds.all (meets q) := by
  induction ds with
  | nil => rfl
  | cons d ds ih => rw [allMeet, ih, List.all_cons]

/-! ## Programs -/

namespace Directive

/-- The place of a directive's kind in the order of the kinds. -/
def rank : Directive → Nat
  | .requires _ _ _ => 0
  | .exports _ _ _ => 1
  | .uses _ => 2
  | .provides _ _ _ => 3
  | .stray _ => 4

def meets (q : Demands) : Directive → Bool
  | .requires _ _ as => as.all (·.meets q)
  | .exports _ _ as => as.all (·.meets q)
  | .uses t => t.isLoadable
  | .provides t ts as => t.isLoadable && ts.all TypeExpr.isLoadable && as.all (·.meets q)
  | .stray _ => false

end Directive

/-- Whether a module has its directives in the order of their kinds, each as demanded. -/
def Module.meets (q : Demands) (m : Module) : Bool :=
  decide (m.directives.Pairwise fun a b => a.rank ≤ b.rank) && m.directives.all (Directive.meets q)

def Package.meets (q : Demands) (p : Package) : Bool :=
  p.members.all (Declaration.meets q) && p.annotations.all (·.meets q) && q.doc p.doc

def Program.meets (q : Demands) (p : Program) : Bool :=
  p.modules.all (Module.meets q) && p.packages.all (Package.meets q)

end ProgramFacts
