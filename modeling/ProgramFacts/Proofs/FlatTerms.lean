import ProgramFacts.Proofs.FlatTexts
import ProgramFacts.Proofs.Lexemes
import ProgramFacts.Proofs.SchemaSoundness

/-!
# Terms on one line

The texts of a model are those of its names, kinds and values, without its documentation. A part of a declaration whose
texts are flat has a flat term: brackets, commas and quotes add no line end, and neither do numbers. Documentation is
put on one line before it becomes an atom, so that its atom is flat in any case.
-/

namespace ProgramFacts

open Text

/-! ## The texts of a model

All texts but those of documentation.
-/

mutual

def TypeExpr.strings : TypeExpr → List String
  | .declared n ts => n :: TypeExpr.stringsIn ts
  | .primitive k => [k]
  | .array t => t.strings
  | .typeVariable n => [n]
  | .wildcard extendsBound superBound => TypeExpr.stringsOf extendsBound ++ TypeExpr.stringsOf superBound
  | .noType k => [k]
  | .other k d => [k, d]
  | .stray f => f.strings

def TypeExpr.stringsIn : List TypeExpr → List String
  | [] => []
  | t :: ts => t.strings ++ TypeExpr.stringsIn ts

def TypeExpr.stringsOf : Option TypeExpr → List String
  | none => []
  | some t => t.strings

end

mutual

def Value.strings : Value → List String
  | .bool _ | .integer _ | .number _ => []
  | .text s => [s]
  | .char s => [s]
  | .enumConstant e n => [e, n]
  | .nested n vs => n :: Value.argumentStrings vs
  | .list vs => Value.stringsIn vs
  | .type t => t.strings
  | .other k d => [k, d]
  | .stray f => f.strings

def Value.stringsIn : List Value → List String
  | [] => []
  | v :: vs => v.strings ++ Value.stringsIn vs

def Value.argumentStrings : List (String × Value) → List String
  | [] => []
  | (n, v) :: vs => n :: (v.strings ++ Value.argumentStrings vs)

end

def Annotation.strings (a : Annotation) : List String := a.name :: Value.argumentStrings a.arguments

def TypeParameter.strings (p : TypeParameter) : List String :=
  p.name :: (TypeExpr.stringsIn p.bounds ++ p.annotations.flatMap Annotation.strings)

def Parameter.strings (p : Parameter) : List String :=
  p.name :: (p.type.strings ++ p.modifiers ++ p.annotations.flatMap Annotation.strings)

def RecordComponent.strings (c : RecordComponent) : List String :=
  c.name :: (c.type.strings ++ c.annotations.flatMap Annotation.strings)

def Variable.strings (v : Variable) : List String :=
  v.kind :: v.name :: (v.type.strings ++ v.modifiers ++ v.annotations.flatMap Annotation.strings)

def Executable.strings (e : Executable) : List String :=
  e.kind :: e.name :: (e.modifiers ++ e.typeParameters.flatMap TypeParameter.strings ++ e.returnType.strings ++
    e.parameters.flatMap Parameter.strings ++ TypeExpr.stringsIn e.thrownTypes ++
    e.annotations.flatMap Annotation.strings)

def TypeHead.strings (t : TypeHead) : List String :=
  t.kind :: t.name :: (t.modifiers ++ t.typeParameters.flatMap TypeParameter.strings ++
    TypeExpr.stringsOf t.superclass ++ TypeExpr.stringsIn t.interfaces ++ t.permitted ++
    t.components.flatMap RecordComponent.strings ++ t.annotations.flatMap Annotation.strings)

mutual

def Declaration.strings : Declaration → List String
  | .ofType t ds => t.strings ++ Declaration.stringsIn ds
  | .ofExecutable e => e.strings
  | .ofVariable v => v.strings
  | .stray f => f.strings

def Declaration.stringsIn : List Declaration → List String
  | [] => []
  | d :: ds => d.strings ++ Declaration.stringsIn ds

end

def Directive.strings : Directive → List String
  | .requires m ms as => m :: (ms ++ as.flatMap Annotation.strings)
  | .exports p ts as => p :: (ts ++ as.flatMap Annotation.strings)
  | .uses t => t.strings
  | .provides t ts as => t.strings ++ TypeExpr.stringsIn ts ++ as.flatMap Annotation.strings
  | .stray f => f.strings

def Module.strings (m : Module) : List String :=
  m.name :: (m.modifiers ++ m.directives.flatMap Directive.strings ++ m.packages)

def Package.strings (p : Package) : List String :=
  p.name :: (Declaration.stringsIn p.members ++ p.annotations.flatMap Annotation.strings)

def Program.strings (p : Program) : List String :=
  p.modules.flatMap Module.strings ++ p.packages.flatMap Package.strings

theorem TypeExpr.areFlat_stringsIn {ts : List TypeExpr} :
    AreFlat (TypeExpr.stringsIn ts) ↔ ∀ t ∈ ts, AreFlat t.strings := by
  induction ts with
  | nil => simp [TypeExpr.stringsIn]
  | cons t ts ih => rw [TypeExpr.stringsIn, areFlat_append, ih, List.forall_mem_cons]

/-! ## Terms on one line -/

namespace Term

/-- Whether no line ends in the one-line form. -/
def IsFlat (t : Term) : Prop := Text.IsFlat t.chars

theorem isFlat_atom {v : String} (flat : Text.IsFlat v.toList) : (atom v).IsFlat := by
  intro c member
  rw [chars] at member
  rcases Atom.mem_encode member with rfl | within
  · decide
  · exact flat c within

theorem isFlat_charsList {ts : List Term} (each : ∀ t ∈ ts, t.IsFlat) : Text.IsFlat (charsList ts) := by
  induction ts with
  | nil => simp [charsList]
  | cons t ts ih =>
    obtain ⟨first, others⟩ := List.forall_mem_cons.1 each
    rw [charsList, isFlat_append]
    refine ⟨first, ?_⟩
    split
    · exact isFlat_nil
    · simp only [isFlat_cons, ih others]
      decide

theorem isFlat_list {ts : List Term} (each : ∀ t ∈ ts, t.IsFlat) : (list ts).IsFlat := by
  simp only [IsFlat, chars, List.cons_append, isFlat_cons, isFlat_append, isFlat_charsList each, isFlat_nil]
  decide

theorem isFlat_compound {n : String} {ts : List Term} (name : Text.IsFlat n.toList) (each : ∀ t ∈ ts, t.IsFlat) :
    (compound n ts).IsFlat := by
  simp only [IsFlat, chars, List.append_assoc, List.cons_append, isFlat_cons, isFlat_append, name,
    isFlat_charsList each, isFlat_nil]
  decide

end Term

open Term (isFlat_atom isFlat_list isFlat_compound)
open Noted (ends_pure ends_warn ends_after ends_each_mem)

/-- A list of what is flat. -/
theorem Noted.Ends.flatList {n : Noted (List Term)} (all : n.Ends fun ts => ∀ t ∈ ts, t.IsFlat) :
    (n >>= fun ts => pure (.list ts)).Ends Term.IsFlat :=
  all.map fun _ each => isFlat_list each

/-! ## Types and values -/

theorem declaredTerm_flat {name : String} (flat : IsFlat name.toList) {arguments : List Term}
    (each : ∀ t ∈ arguments, t.IsFlat) : (declaredTerm name arguments).IsFlat := by
  refine isFlat_compound (by simp [isBreak]) ?_
  simp [isFlat_atom flat, isFlat_list each]

theorem typeTerm_flat {form : String} (known : IsFlat form.toList) {operand : Term} (flat : operand.IsFlat) :
    (typeTerm form operand).IsFlat := by
  refine isFlat_compound (by simp [isBreak]) ?_
  simp [isFlat_atom known, flat]

theorem annotationTerm_flat {name : String} (flat : IsFlat name.toList) {arguments : List Term}
    (each : ∀ t ∈ arguments, t.IsFlat) : (annotationTerm name arguments).IsFlat := by
  refine isFlat_compound (by simp [isBreak]) ?_
  simp [isFlat_atom flat, isFlat_list each]

mutual

theorem TypeExpr.encode_flat : ∀ t : TypeExpr, AreFlat t.strings → t.encode.Ends Term.IsFlat
  | .declared n ts, flat => by
    rw [TypeExpr.strings, areFlat_cons] at flat
    rw [TypeExpr.encode]
    exact (TypeExpr.encodeList_flat ts flat.2).map fun _ each => declaredTerm_flat flat.1 each
  | .primitive k, flat => by
    simp only [TypeExpr.strings, areFlat_cons] at flat
    rw [TypeExpr.encode]
    exact ends_pure (typeTerm_flat (by simp [isBreak]) (isFlat_atom (isFlat_lower flat.1)))
  | .array t, flat => by
    rw [TypeExpr.strings] at flat
    rw [TypeExpr.encode]
    exact (t.encode_flat flat).map fun _ inner => typeTerm_flat (by simp [isBreak]) inner
  | .typeVariable n, flat => by
    simp only [TypeExpr.strings, areFlat_cons] at flat
    rw [TypeExpr.encode]
    exact ends_pure (typeTerm_flat (by simp [isBreak]) (isFlat_atom flat.1))
  | .wildcard (some t) _, flat => by
    rw [TypeExpr.strings, areFlat_append, TypeExpr.stringsOf] at flat
    rw [TypeExpr.encode]
    exact (t.encode_flat flat.1).map fun _ inner => typeTerm_flat (by simp [isBreak]) inner
  | .wildcard none (some t), flat => by
    simp only [TypeExpr.strings, areFlat_append, TypeExpr.stringsOf] at flat
    rw [TypeExpr.encode]
    exact (t.encode_flat flat.2).map fun _ inner => typeTerm_flat (by simp [isBreak]) inner
  | .wildcard none none, _ => by
    rw [TypeExpr.encode]
    exact ends_pure (typeTerm_flat (by simp [isBreak]) (isFlat_atom (by simp [isBreak])))
  | .noType k, flat => by
    simp only [TypeExpr.strings, areFlat_cons] at flat
    rw [TypeExpr.encode]
    exact ends_pure (typeTerm_flat (by simp [isBreak]) (isFlat_atom (isFlat_lower flat.1)))
  | .other _ _, _ => by
    rw [TypeExpr.encode]
    exact ends_warn _ (isFlat_atom (by simp [isBreak]))
  | .stray _, _ => by
    rw [TypeExpr.encode]
    exact ends_after fun _ => ends_warn _ (isFlat_atom (by simp [isBreak]))

theorem TypeExpr.encodeList_flat : ∀ ts : List TypeExpr, AreFlat (TypeExpr.stringsIn ts) →
    (TypeExpr.encodeList ts).Ends fun us => ∀ u ∈ us, u.IsFlat
  | [], _ => by
    rw [TypeExpr.encodeList]
    exact ends_pure (by simp)
  | t :: ts, flat => by
    rw [TypeExpr.stringsIn, areFlat_append] at flat
    rw [TypeExpr.encodeList]
    exact (t.encode_flat flat.1).cons (TypeExpr.encodeList_flat ts flat.2)

end

theorem isFlat_apostrophized {s : String} (flat : IsFlat s.toList) : IsFlat (apostrophized s).toList := by
  simp only [apostrophized, String.toList_append, isFlat_append, flat]
  simp [isBreak]

mutual

theorem Value.encode_flat : ∀ v : Value, AreFlat v.strings → v.encode.Ends Term.IsFlat
  | .bool b, _ => by
    rw [Value.encode]
    refine ends_pure (isFlat_atom ?_)
    split <;> simp [isBreak]
  | .integer n, _ => by
    rw [Value.encode]
    split
    · exact ends_pure (isFlat_atom (isFlat_toString_int n))
    · intro t impossible
      cases impossible
  | .number x, _ => by
    rw [Value.encode]
    exact ends_pure (isFlat_atom (Numeral.isFlat_text Numeral.isFlat_factStyle x))
  | .text s, flat => by
    simp only [Value.strings, areFlat_cons] at flat
    rw [Value.encode]
    exact ends_pure (isFlat_atom (isFlat_apostrophized flat.1))
  | .char s, flat => by
    simp only [Value.strings, areFlat_cons] at flat
    rw [Value.encode]
    exact ends_pure (isFlat_atom (isFlat_apostrophized flat.1))
  | .enumConstant e n, flat => by
    simp only [Value.strings, areFlat_cons] at flat
    rw [Value.encode]
    refine ends_pure (isFlat_atom ?_)
    simp only [String.toList_append, isFlat_append, flat]
    simp [isBreak]
  | .nested n vs, flat => by
    rw [Value.strings, areFlat_cons] at flat
    rw [Value.encode]
    exact (Value.encodeArguments_flat vs flat.2).map fun _ each => annotationTerm_flat flat.1 each
  | .list vs, flat => by
    rw [Value.strings] at flat
    rw [Value.encode]
    exact (Value.encodeList_flat vs flat).flatList
  | .type t, flat => by
    rw [Value.strings] at flat
    rw [Value.encode]
    exact t.encode_flat flat
  | .other _ _, _ => by
    rw [Value.encode]
    exact ends_warn _ (isFlat_atom (by simp [isBreak]))
  | .stray _, _ => by
    rw [Value.encode]
    exact ends_after fun _ => ends_warn _ (isFlat_atom (by simp [isBreak]))

theorem Value.encodeList_flat : ∀ vs : List Value, AreFlat (Value.stringsIn vs) →
    (Value.encodeList vs).Ends fun ts => ∀ t ∈ ts, t.IsFlat
  | [], _ => by
    rw [Value.encodeList]
    exact ends_pure (by simp)
  | v :: vs, flat => by
    rw [Value.stringsIn, areFlat_append] at flat
    rw [Value.encodeList]
    exact (v.encode_flat flat.1).cons (Value.encodeList_flat vs flat.2)

theorem Value.encodeArguments_flat : ∀ vs : List (String × Value), AreFlat (Value.argumentStrings vs) →
    (Value.encodeArguments vs).Ends fun ts => ∀ t ∈ ts, t.IsFlat
  | [], _ => by
    rw [Value.encodeArguments]
    exact ends_pure (by simp)
  | (n, v) :: vs, flat => by
    rw [Value.argumentStrings, areFlat_cons, areFlat_append] at flat
    obtain ⟨name, value, others⟩ := flat
    rw [Value.encodeArguments]
    refine (v.encode_flat value).bind fun t here => (Value.encodeArguments_flat vs others).map fun ts there => ?_
    have argument : (Term.compound "annotation_argument" [.atom n, t]).IsFlat :=
      isFlat_compound (by simp [isBreak]) (by simp [isFlat_atom name, here])
    exact List.forall_mem_cons.2 ⟨argument, there⟩

end

/-! ## The recurring parts of declarations -/

theorem encodeAnnotations_flat {as : List Annotation} (flat : ∀ a ∈ as, AreFlat a.strings) :
    (encodeAnnotations as).Ends Term.IsFlat := by
  refine (ends_each_mem fun a member => ?_).flatList
  obtain ⟨name, arguments⟩ := areFlat_cons.1 (flat a member)
  exact (Value.encodeArguments_flat a.arguments arguments).map fun _ each => annotationTerm_flat name each

theorem encodeModifiers_flat {ms : List String} (flat : AreFlat ms) : (encodeModifiers ms).IsFlat := by
  refine isFlat_list fun t member => ?_
  obtain ⟨m, listed, rfl⟩ := List.mem_map.1 member
  exact isFlat_compound (by simp [isBreak]) (by simp [isFlat_atom (isFlat_lower (flat m listed))])

theorem atoms_flat {names : List String} (flat : AreFlat names) : (atoms names).IsFlat := by
  refine isFlat_list fun t member => ?_
  obtain ⟨n, listed, rfl⟩ := List.mem_map.1 member
  exact isFlat_atom (flat n listed)

theorem encodeTypes_flat {ts : List TypeExpr} (flat : AreFlat (TypeExpr.stringsIn ts)) :
    (encodeTypes ts).Ends Term.IsFlat :=
  (TypeExpr.encodeList_flat ts flat).flatList

theorem encodeTypeParameters_flat {ps : List TypeParameter} (flat : ∀ p ∈ ps, AreFlat p.strings) :
    (encodeTypeParameters ps).Ends Term.IsFlat := by
  refine (ends_each_mem fun p member => ?_).flatList
  have own := flat p member
  simp only [TypeParameter.strings, areFlat_cons, areFlat_append, areFlat_flatMap] at own
  obtain ⟨name, bounds, notes⟩ := own
  refine (encodeTypes_flat bounds).bind fun b hb => (encodeAnnotations_flat notes).map fun n hn => ?_
  exact isFlat_compound (by simp [isBreak]) (by simp [isFlat_atom name, hb, hn])

theorem encodeParameters_flat {ps : List Parameter} (flat : ∀ p ∈ ps, AreFlat p.strings) :
    (encodeParameters ps).Ends Term.IsFlat := by
  refine (ends_each_mem fun p member => ?_).flatList
  have own := flat p member
  simp only [Parameter.strings, areFlat_cons, areFlat_append, areFlat_flatMap, and_assoc] at own
  obtain ⟨name, type, modifiers, notes⟩ := own
  refine (p.type.encode_flat type).bind fun t ht => (encodeAnnotations_flat notes).map fun n hn => ?_
  exact isFlat_compound (by simp [isBreak]) (by simp [isFlat_atom name, ht, encodeModifiers_flat modifiers, hn])

theorem encodeThrows_flat {ts : List TypeExpr} (flat : AreFlat (TypeExpr.stringsIn ts)) :
    (encodeThrows ts).Ends Term.IsFlat := by
  refine (ends_each_mem fun t member => ?_).flatList
  refine (t.encode_flat (TypeExpr.areFlat_stringsIn.1 flat t member)).map fun type ht => ?_
  exact isFlat_compound (by simp [isBreak]) (by simp [ht])

theorem encodeComponents_flat {cs : List RecordComponent} (flat : ∀ c ∈ cs, AreFlat c.strings) :
    (encodeComponents cs).Ends Term.IsFlat := by
  refine (ends_each_mem fun c member => ?_).flatList
  have own := flat c member
  simp only [RecordComponent.strings, areFlat_cons, areFlat_append, areFlat_flatMap] at own
  obtain ⟨name, type, notes⟩ := own
  refine (c.type.encode_flat type).bind fun t ht => (encodeAnnotations_flat notes).map fun n hn => ?_
  exact isFlat_compound (by simp [isBreak]) (by simp [isFlat_atom name, ht, hn])

/-- The form of a supertype is a word, or the kind of a type. -/
theorem TypeExpr.isFlat_form {t : TypeExpr} (flat : AreFlat t.strings) : IsFlat t.form.toList := by
  cases t with
  | declared n ts =>
    rw [TypeExpr.form]
    simp [isBreak]
  | array t =>
    rw [TypeExpr.form]
    simp [isBreak]
  | typeVariable n =>
    rw [TypeExpr.form]
    simp [isBreak]
  | wildcard e s =>
    rw [TypeExpr.form]
    simp [isBreak]
  | primitive k =>
    rw [TypeExpr.strings] at flat
    exact (areFlat_cons.1 flat).1
  | noType k =>
    rw [TypeExpr.strings] at flat
    exact (areFlat_cons.1 flat).1
  | other k d =>
    rw [TypeExpr.strings] at flat
    exact isFlat_lower (areFlat_cons.1 flat).1
  | stray f =>
    rw [TypeExpr.strings] at flat
    exact Form.isFlat_formName flat

theorem encodeImplements_flat {ts : List TypeExpr} (flat : AreFlat (TypeExpr.stringsIn ts)) :
    (encodeImplements ts).Ends Term.IsFlat := by
  refine (ends_each_mem fun t member => ?_).flatList
  have own := TypeExpr.areFlat_stringsIn.1 flat t member
  refine (t.encode_flat own).map fun type ht => ?_
  exact isFlat_compound (by simp [isBreak]) (by simp [isFlat_atom (TypeExpr.isFlat_form own), ht])

theorem encodeExtends_flat {t? : Option TypeExpr} (flat : AreFlat (TypeExpr.stringsOf t?)) :
    (encodeExtends t?).Ends Term.IsFlat := by
  cases t? with
  | none => exact ends_pure (isFlat_atom (by simp [isBreak]))
  | some t =>
    rw [TypeExpr.stringsOf] at flat
    rw [encodeExtends]
    split
    · exact ends_pure (isFlat_atom (by simp [isBreak]))
    · refine (t.encode_flat flat).map fun type ht => ?_
      exact isFlat_compound (by simp [isBreak]) (by simp [isFlat_atom (TypeExpr.isFlat_form flat), ht])

/-- Documentation is on one line, whatever it was before. -/
theorem isFlat_oneLine (cs : List Char) : IsFlat (oneLine cs) := by
  fun_induction oneLine cs with
  | case1 => exact isFlat_nil
  | case2 cs ih =>
    simp only [isFlat_cons, ih]
    decide
  | case3 cs _ ih => exact ih
  | case4 c cs feed carriage ih =>
    have plain : isBreak c = false := by simp [isBreak, feed, carriage]
    exact isFlat_cons.2 ⟨plain, ih⟩

theorem encodeDoc_flat (docs : Bool) (doc : Document) : (Walk.ofResult (encodeDoc docs doc)).Ends Term.IsFlat := by
  intro t ended
  change encodeDoc docs doc = .ok t at ended
  unfold encodeDoc at ended
  split at ended
  · split at ended <;> cases ended
    refine isFlat_atom ?_
    rw [String.toList_ofList]
    exact isFlat_oneLine _
  · cases ended
    exact isFlat_atom (by simp)

end ProgramFacts
