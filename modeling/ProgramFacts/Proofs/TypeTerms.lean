import ProgramFacts.Proofs.Form.Embedding
import ProgramFacts.Proofs.TermDecoding
import ProgramFacts.Proofs.Writable

/-!
# What the terms of types tell

Every type has a term, unless something in it is no type and cannot be shown. The term tells all of the type except the
case of a primitive type's or a missing type's kind, the super bound of a wildcard that has an extends bound, and what
it is that has no shape. With these left out a type is in its normal form. The term is that of the normal form, and the
normal form is read back from it; so two types that have terms have the same term, and the same text, if and only if
they have the same normal form.
-/

namespace ProgramFacts

namespace TypeExpr

mutual

/-- The type as far as its term tells. -/
def norm : TypeExpr → TypeExpr
  | .declared n ts => .declared n (normList ts)
  | .primitive k => .primitive (Text.lower k)
  | .array t => .array t.norm
  | .typeVariable n => .typeVariable n
  | .wildcard (some t) _ => .wildcard (some t.norm) none
  | .wildcard none (some t) => .wildcard none (some t.norm)
  | .wildcard none none => .wildcard none none
  | .noType k => .noType (Text.lower k)
  | .other _ _ | .stray _ => .other "" ""

def normList : List TypeExpr → List TypeExpr
  | [] => []
  | t :: ts => t.norm :: normList ts

end

mutual

/-- The term of a type in normal form. -/
def written : TypeExpr → Term
  | .declared n ts => declaredTerm n (writtenList ts)
  | .primitive k => typeTerm "primitive" (.atom k)
  | .array t => typeTerm "array" t.written
  | .typeVariable n => typeTerm "type_variable" (.atom n)
  | .wildcard (some t) _ => typeTerm "wildcard_extends" t.written
  | .wildcard none (some t) => typeTerm "wildcard_super" t.written
  | .wildcard none none => typeTerm "wildcard_unbounded" nullAtom
  | .noType k => typeTerm "no_type" (.atom k)
  | .other _ _ | .stray _ => unknownType

def writtenList : List TypeExpr → List Term
  | [] => []
  | t :: ts => t.written :: writtenList ts

end

/-- The term of a type. -/
def term (t : TypeExpr) : Term := t.norm.written

/-- The terms of types. -/
def terms (ts : List TypeExpr) : List Term := writtenList (normList ts)

mutual

/-- A type that is writable has the term of its normal form. -/
theorem result_encode : ∀ t : TypeExpr, t.isWritable = true → t.encode.result = .ok t.term
  | .declared n ts => fun writable => by
    rw [encode, Noted.bind_eq_of_ok (result_encodeList ts writable)]
    rfl
  | .array t | .wildcard (some t) _ | .wildcard none (some t) => fun writable => by
    rw [encode, Noted.bind_eq_of_ok (t.result_encode writable)]
    rfl
  | .primitive _ | .typeVariable _ | .wildcard none none | .noType _ | .other _ _ => fun _ => by
    rw [encode]
    rfl
  | .stray f => fun writable => by
    rw [isWritable] at writable
    rw [encode, Form.describe?, if_pos writable]
    rfl

theorem result_encodeList : ∀ ts : List TypeExpr, areWritable ts = true → (encodeList ts).result = .ok (terms ts)
  | [] => fun _ => by
    rw [encodeList]
    rfl
  | t :: ts => fun writable => by
    rw [areWritable, Bool.and_eq_true] at writable
    rw [encodeList, Noted.bind_eq_of_ok (t.result_encode writable.1),
      Noted.bind_eq_of_ok (result_encodeList ts writable.2)]
    rfl

end

mutual

/-- A type with nothing but types in it is writable. -/
theorem isWritable_of_isProper : ∀ t : TypeExpr, t.isProper = true → t.isWritable = true
  | .declared _ ts => fun proper => areWritable_of_areProper ts proper
  | .array t => fun proper => t.isWritable_of_isProper proper
  | .wildcard (some t) _ => fun proper => t.isWritable_of_isProper (Bool.and_eq_true_iff.1 proper).1
  | .wildcard none (some t) => fun proper => t.isWritable_of_isProper (Bool.and_eq_true_iff.1 proper).2
  | .wildcard none none | .primitive _ | .typeVariable _ | .noType _ | .other _ _ => fun _ => rfl
  | .stray _ => fun proper => by cases proper

theorem areWritable_of_areProper : ∀ ts : List TypeExpr, areProper ts = true → areWritable ts = true
  | [] => fun _ => rfl
  | t :: ts => fun proper => by
    rw [areProper, Bool.and_eq_true] at proper
    rw [areWritable, t.isWritable_of_isProper proper.1, areWritable_of_areProper ts proper.2, Bool.and_self]

end

theorem isWellNamed_typeTerm (form : String) {operand : Term} (named : operand.isWellNamed = true) :
    (typeTerm form operand).isWellNamed = true := by
  rw [Term.isWellNamed] at named
  simp only [typeTerm, Term.isWellNamed, Term.namesAll, Term.namesAllIn, named]
  decide

mutual

theorem isWellNamed_written : ∀ t : TypeExpr, t.written.isWellNamed = true
  | .declared n ts => by
    have arguments := namesAllIn_writtenList ts
    simp only [written, declaredTerm, Term.isWellNamed, Term.namesAll, Term.namesAllIn, arguments]
    decide
  | .array t => isWellNamed_typeTerm "array" t.isWellNamed_written
  | .wildcard (some t) _ => isWellNamed_typeTerm "wildcard_extends" t.isWellNamed_written
  | .wildcard none (some t) => isWellNamed_typeTerm "wildcard_super" t.isWellNamed_written
  | .wildcard none none | .primitive _ | .typeVariable _ | .noType _ | .other _ _ | .stray _ => by
    rw [written]
    rfl

theorem namesAllIn_writtenList : ∀ ts : List TypeExpr,
    Term.namesAllIn (fun n => Atom.isIdentifier n.toList) (writtenList ts) = true
  | [] => rfl
  | t :: ts => by
    have first := t.isWellNamed_written
    rw [Term.isWellNamed] at first
    rw [writtenList, Term.namesAllIn, first, namesAllIn_writtenList ts, Bool.and_true]

end

end TypeExpr

/-! ## Reading types back -/

namespace Term

mutual

/-- The type in normal form that a term stands for; anything else stands for a type without a shape. -/
def type : Term → TypeExpr
  | .compound "declared_type" [.atom n, .list ts] => .declared n (typeList ts)
  | .compound "type" [.atom "primitive", .atom k] => .primitive k
  | .compound "type" [.atom "array", t] => .array t.type
  | .compound "type" [.atom "type_variable", .atom n] => .typeVariable n
  | .compound "type" [.atom "wildcard_extends", t] => .wildcard (some t.type) none
  | .compound "type" [.atom "wildcard_super", t] => .wildcard none (some t.type)
  | .compound "type" [.atom "wildcard_unbounded", _] => .wildcard none none
  | .compound "type" [.atom "no_type", .atom k] => .noType k
  | _ => .other "" ""

def typeList : List Term → List TypeExpr
  | [] => []
  | t :: ts => t.type :: typeList ts

end

end Term

namespace TypeExpr

mutual

/-- The normal form is read back from the term. -/
theorem type_term : ∀ t : TypeExpr, t.term.type = t.norm
  | .declared n ts => by
    change TypeExpr.declared n (Term.typeList (terms ts)) = .declared n (normList ts)
    rw [typeList_terms ts]
  | .array t => by
    change TypeExpr.array t.term.type = .array t.norm
    rw [t.type_term]
  | .wildcard (some t) _ => by
    change TypeExpr.wildcard (some t.term.type) none = .wildcard (some t.norm) none
    rw [t.type_term]
  | .wildcard none (some t) => by
    change TypeExpr.wildcard none (some t.term.type) = .wildcard none (some t.norm)
    rw [t.type_term]
  | .wildcard none none | .primitive _ | .typeVariable _ | .noType _ | .other _ _ | .stray _ => by
    rw [term, norm]
    rfl

theorem typeList_terms : ∀ ts : List TypeExpr, Term.typeList (terms ts) = normList ts
  | [] => rfl
  | t :: ts => by
    change t.term.type :: Term.typeList (terms ts) = t.norm :: normList ts
    rw [t.type_term, typeList_terms ts]

end

/-- Two types have the same term if and only if they have the same normal form. -/
theorem term_eq_iff {t u : TypeExpr} : t.term = u.term ↔ t.norm = u.norm := by
  refine ⟨fun same => ?_, congrArg written⟩
  rw [← t.type_term, same, u.type_term]

/-- **What the texts of types tell.** A type has a term if and only if it is writable, as every type is that has nothing
but types in it. The texts of the terms of two types are equal if and only if the types have the same normal form. -/
theorem texts_eq_iff_norm_eq (t u : TypeExpr) :
    (∀ v : TypeExpr, v.encode.isOk = v.isWritable ∧ (v.isProper = true → v.isWritable = true)) ∧
      (t.isWritable = true → u.isWritable = true →
        ∃ a b, t.encode.result = .ok a ∧ u.encode.result = .ok b ∧ (a.encode = b.encode ↔ t.norm = u.norm)) := by
  refine ⟨fun v => ⟨v.isOk_encode, v.isWritable_of_isProper⟩, fun writable writable' => ?_⟩
  refine ⟨t.term, u.term, t.result_encode writable, u.result_encode writable', fun same => ?_, fun same => ?_⟩
  · have first : Term.decode t.term.encode = some t.term := Term.decode_encode t.norm.isWellNamed_written
    have second : Term.decode u.term.encode = some u.term := Term.decode_encode u.norm.isWellNamed_written
    rw [same, second] at first
    exact term_eq_iff.1 (Option.some.inj first).symm
  · rw [term_eq_iff.2 same]

end TypeExpr

end ProgramFacts
