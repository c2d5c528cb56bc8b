import ProgramFacts.Proofs.ModeAgreement

/-!
# Why walks stop

Whatever a declaration is made of has a term, but for an integer with too many digits, and documentation that is neither
a text nor absent; and a warning has a text, but for such an integer in it. So a walk over a program with proper
documentation stops at such an integer, if it stops.
-/

namespace ProgramFacts

/-- There is a result, unless an integer has too many digits. -/
def OnlyOversized {α : Type} (r : Except EncodeFault α) : Prop := ∀ e, r = .error e → e = .oversized

theorem onlyOversized_of_isOk {α : Type} {r : Except EncodeFault α} (ok : r.isOk = true) : OnlyOversized r := by
  intro e failed
  rw [failed] at ok
  cases ok

theorem onlyOversized_error {α : Type} {e : EncodeFault} (oversized : e = .oversized) :
    OnlyOversized (.error e : Except EncodeFault α) := by
  rintro _ ⟨⟩
  exact oversized

theorem onlyOversized_text (text? : Option String) : OnlyOversized (textOrOversized text?) := by
  cases text? with
  | none => exact onlyOversized_error rfl
  | some _ => exact onlyOversized_of_isOk rfl

namespace Noted

variable {α β : Type}

theorem onlyOversized_bind {x : Noted α} {f : α → Noted β} (first : OnlyOversized x.result)
    (next : ∀ a, OnlyOversized (f a).result) : OnlyOversized (x >>= f).result := by
  cases h : x.result with
  | ok a =>
    rw [bind_eq_of_ok h]
    exact next a
  | error e =>
    rw [bind_eq_of_error h]
    exact onlyOversized_error (first e h)

/-- What only goes on with a result does not fail on its own. -/
theorem onlyOversized_bind_pure {x : Noted α} {f : α → β} (first : OnlyOversized x.result) :
    OnlyOversized (x >>= fun a => pure (f a)).result :=
  onlyOversized_bind first fun _ => onlyOversized_of_isOk rfl

theorem onlyOversized_each {f : α → Noted β} (one : ∀ a, OnlyOversized (f a).result) (as : List α) :
    OnlyOversized (each f as).result := by
  induction as with
  | nil => exact onlyOversized_of_isOk rfl
  | cons a as ih => exact onlyOversized_bind (one a) fun _ => onlyOversized_bind_pure ih

end Noted

open Noted (onlyOversized_bind onlyOversized_bind_pure onlyOversized_each)

/-! ## Parts of declarations -/

mutual

theorem TypeExpr.onlyOversized_encode : ∀ t : TypeExpr, OnlyOversized t.encode.result
  | .declared _ ts => by
    rw [TypeExpr.encode]
    exact onlyOversized_bind_pure (TypeExpr.onlyOversized_encodeList ts)
  | .array t | .wildcard (some t) _ | .wildcard none (some t) => by
    rw [TypeExpr.encode]
    exact onlyOversized_bind_pure t.onlyOversized_encode
  | .primitive _ | .typeVariable _ | .wildcard none none | .noType _ | .other _ _ => by
    rw [TypeExpr.encode]
    exact onlyOversized_of_isOk rfl
  | .stray f => by
    rw [TypeExpr.encode]
    exact onlyOversized_bind (onlyOversized_text f.describe?) fun _ => onlyOversized_of_isOk rfl

theorem TypeExpr.onlyOversized_encodeList : ∀ ts : List TypeExpr, OnlyOversized (TypeExpr.encodeList ts).result
  | [] => by
    rw [TypeExpr.encodeList]
    exact onlyOversized_of_isOk rfl
  | t :: ts => by
    rw [TypeExpr.encodeList]
    exact onlyOversized_bind t.onlyOversized_encode fun _ =>
      onlyOversized_bind_pure (TypeExpr.onlyOversized_encodeList ts)

end

mutual

theorem Value.onlyOversized_encode : ∀ v : Value, OnlyOversized v.encode.result
  | .bool _ | .number _ | .text _ | .char _ | .enumConstant _ _ | .other _ _ => by
    rw [Value.encode]
    exact onlyOversized_of_isOk rfl
  | .integer n => by
    rw [Value.encode]
    split
    · exact onlyOversized_of_isOk rfl
    · exact onlyOversized_error rfl
  | .nested _ vs => by
    rw [Value.encode]
    exact onlyOversized_bind_pure (Value.onlyOversized_encodeArguments vs)
  | .list vs => by
    rw [Value.encode]
    exact onlyOversized_bind_pure (Value.onlyOversized_encodeList vs)
  | .type t => by
    rw [Value.encode]
    exact t.onlyOversized_encode
  | .stray f => by
    rw [Value.encode]
    exact onlyOversized_bind (onlyOversized_text f.describe?) fun _ => onlyOversized_of_isOk rfl

theorem Value.onlyOversized_encodeList : ∀ vs : List Value, OnlyOversized (Value.encodeList vs).result
  | [] => by
    rw [Value.encodeList]
    exact onlyOversized_of_isOk rfl
  | v :: vs => by
    rw [Value.encodeList]
    exact onlyOversized_bind v.onlyOversized_encode fun _ =>
      onlyOversized_bind_pure (Value.onlyOversized_encodeList vs)

theorem Value.onlyOversized_encodeArguments :
    ∀ vs : List (String × Value), OnlyOversized (Value.encodeArguments vs).result
  | [] => by
    rw [Value.encodeArguments]
    exact onlyOversized_of_isOk rfl
  | (_, v) :: vs => by
    rw [Value.encodeArguments]
    exact onlyOversized_bind v.onlyOversized_encode fun _ =>
      onlyOversized_bind_pure (Value.onlyOversized_encodeArguments vs)

end

theorem onlyOversized_encodeAnnotations (as : List Annotation) : OnlyOversized (encodeAnnotations as).result := by
  have one : ∀ a : Annotation, OnlyOversized a.encode.result := fun a =>
    onlyOversized_bind_pure (Value.onlyOversized_encodeArguments a.arguments)
  exact onlyOversized_bind_pure (onlyOversized_each one as)

theorem onlyOversized_encodeTypes (ts : List TypeExpr) : OnlyOversized (encodeTypes ts).result :=
  onlyOversized_bind_pure (TypeExpr.onlyOversized_encodeList ts)

theorem onlyOversized_encodeThrows (ts : List TypeExpr) : OnlyOversized (encodeThrows ts).result :=
  onlyOversized_bind_pure (onlyOversized_each (fun t => onlyOversized_bind_pure t.onlyOversized_encode) ts)

theorem onlyOversized_encodeImplements (ts : List TypeExpr) : OnlyOversized (encodeImplements ts).result :=
  onlyOversized_bind_pure (onlyOversized_each (fun t => onlyOversized_bind_pure t.onlyOversized_encode) ts)

theorem onlyOversized_encodeExtends (superclass : Option TypeExpr) :
    OnlyOversized (encodeExtends superclass).result := by
  cases superclass with
  | none => exact onlyOversized_of_isOk rfl
  | some t =>
    rw [encodeExtends]
    split
    · exact onlyOversized_of_isOk rfl
    · exact onlyOversized_bind_pure t.onlyOversized_encode

theorem onlyOversized_encodeParameters (ps : List Parameter) : OnlyOversized (encodeParameters ps).result := by
  have one : ∀ p : Parameter, OnlyOversized p.encode.result := fun p =>
    onlyOversized_bind p.type.onlyOversized_encode fun _ =>
      onlyOversized_bind_pure (onlyOversized_encodeAnnotations p.annotations)
  exact onlyOversized_bind_pure (onlyOversized_each one ps)

theorem onlyOversized_encodeComponents (cs : List RecordComponent) : OnlyOversized (encodeComponents cs).result := by
  have one : ∀ c : RecordComponent, OnlyOversized c.encode.result := fun c =>
    onlyOversized_bind c.type.onlyOversized_encode fun _ =>
      onlyOversized_bind_pure (onlyOversized_encodeAnnotations c.annotations)
  exact onlyOversized_bind_pure (onlyOversized_each one cs)

theorem onlyOversized_encodeTypeParameters (ps : List TypeParameter) :
    OnlyOversized (encodeTypeParameters ps).result := by
  have one : ∀ p : TypeParameter, OnlyOversized p.encode.result := fun p =>
    onlyOversized_bind (onlyOversized_encodeTypes p.bounds) fun _ =>
      onlyOversized_bind_pure (onlyOversized_encodeAnnotations p.annotations)
  exact onlyOversized_bind_pure (onlyOversized_each one ps)

/-! ## Walks without documentation -/

namespace Walk

variable {α β : Type}

theorem onlyOversized_bind {x : Walk α} {f : α → Walk β} (first : OnlyOversized x.result)
    (next : ∀ a, OnlyOversized (f a).result) : OnlyOversized (x >>= f).result := by
  cases h : x.result with
  | ok a =>
    rw [bind_of_ok h]
    exact next a
  | error e =>
    rw [bind_of_error h]
    exact onlyOversized_error (first e h)

theorem onlyOversized_bind_pure {x : Walk α} {f : α → β} (first : OnlyOversized x.result) :
    OnlyOversized (x >>= fun a => pure (f a)).result :=
  onlyOversized_bind first fun _ => onlyOversized_of_isOk rfl

/-- Something that is left out after its text was made. -/
theorem onlyOversized_message {text? : Option String} {f : String → Walk β} (next : ∀ shown, (f shown).isOk = true) :
    OnlyOversized (ofResult (textOrOversized text?) >>= f).result :=
  onlyOversized_bind (onlyOversized_text text?) fun shown => onlyOversized_of_isOk (next shown)

end Walk

theorem Executable.onlyOversized_visit (e : Executable) : OnlyOversized (e.visit false).result := by
  have parameters := onlyOversized_encodeParameters e.parameters
  have typeParameters := onlyOversized_encodeTypeParameters e.typeParameters
  have notes := onlyOversized_encodeAnnotations e.annotations
  have result := e.returnType.onlyOversized_encode
  have throws := onlyOversized_encodeThrows e.thrownTypes
  rw [Executable.visit]
  split
  · refine Walk.onlyOversized_bind typeParameters fun _ => Walk.onlyOversized_bind result fun _ => ?_
    refine Walk.onlyOversized_bind parameters fun _ => Walk.onlyOversized_bind throws fun _ => ?_
    exact Walk.onlyOversized_bind notes fun _ => onlyOversized_of_isOk rfl
  · split
    · refine Walk.onlyOversized_bind typeParameters fun _ => Walk.onlyOversized_bind parameters fun _ => ?_
      exact Walk.onlyOversized_bind throws fun _ => Walk.onlyOversized_bind notes fun _ => onlyOversized_of_isOk rfl
    · exact onlyOversized_of_isOk rfl

theorem Variable.onlyOversized_visit (v : Variable) : OnlyOversized (v.visit false).result := by
  rw [Variable.visit]
  split
  · exact onlyOversized_of_isOk rfl
  · split
    · refine Walk.onlyOversized_bind v.type.onlyOversized_encode fun _ => ?_
      exact Walk.onlyOversized_bind (onlyOversized_encodeAnnotations v.annotations) fun _ => onlyOversized_of_isOk rfl
    · exact onlyOversized_of_isOk rfl

theorem TypeHead.onlyOversized_fact (t : TypeHead) (package : String) (members : List Term) (shape : TypeShape) :
    OnlyOversized (t.fact false package members shape).result := by
  have typeParameters := onlyOversized_encodeTypeParameters t.typeParameters
  have notes : ∀ f : Term → Walk Term, (∀ a, (f a).isOk = true) →
      OnlyOversized (Walk.ofNoted (encodeAnnotations t.annotations) >>= f).result := fun f last =>
    Walk.onlyOversized_bind (onlyOversized_encodeAnnotations t.annotations) fun a => onlyOversized_of_isOk (last a)
  have interfaces := onlyOversized_encodeImplements t.interfaces
  cases shape with
  | classType =>
    refine Walk.onlyOversized_bind typeParameters fun _ => ?_
    refine Walk.onlyOversized_bind (onlyOversized_encodeExtends t.superclass) fun _ => ?_
    exact Walk.onlyOversized_bind interfaces fun _ => notes _ fun _ => rfl
  | interface =>
    refine Walk.onlyOversized_bind typeParameters fun _ => ?_
    exact Walk.onlyOversized_bind interfaces fun _ => notes _ fun _ => rfl
  | enumeration => exact Walk.onlyOversized_bind interfaces fun _ => notes _ fun _ => rfl
  | annotationType => exact notes _ fun _ => rfl
  | record =>
    refine Walk.onlyOversized_bind typeParameters fun _ => Walk.onlyOversized_bind interfaces fun _ => ?_
    exact Walk.onlyOversized_bind (onlyOversized_encodeComponents t.components) fun _ => notes _ fun _ => rfl

theorem TypeHead.onlyOversized_visitWith (t : TypeHead) (package : String) {members : Walk (List Term)}
    (inner : OnlyOversized members.result) : OnlyOversized (t.visitWith false package members).result := by
  rw [TypeHead.visitWith]
  split
  · exact onlyOversized_of_isOk rfl
  · next shape _ =>
    refine Walk.onlyOversized_bind inner fun ms => ?_
    exact Walk.onlyOversized_bind (t.onlyOversized_fact package ms shape) fun _ => onlyOversized_of_isOk rfl

mutual

theorem onlyOversized_visitMember (package : String) :
    ∀ d : Declaration, OnlyOversized (visitMember false package d).result
  | .ofType t ds => by
    rw [visitMember]
    exact Walk.onlyOversized_bind_pure (t.onlyOversized_visitWith package (onlyOversized_visitMembers package ds))
  | .ofExecutable e => by
    rw [visitMember]
    exact e.onlyOversized_visit
  | .ofVariable v => by
    rw [visitMember]
    exact v.onlyOversized_visit
  | .stray f => by
    rw [visitMember]
    exact Walk.onlyOversized_message fun _ => rfl

theorem onlyOversized_visitMembers (package : String) :
    ∀ ds : List Declaration, OnlyOversized (visitMembers false package ds).result
  | [] => by
    rw [visitMembers]
    exact onlyOversized_of_isOk rfl
  | d :: ds => by
    rw [visitMembers]
    exact Walk.onlyOversized_bind (onlyOversized_visitMember package d) fun _ =>
      Walk.onlyOversized_bind_pure (onlyOversized_visitMembers package ds)

end

theorem onlyOversized_visitPackageMembers (package : String) (ds : List Declaration) :
    OnlyOversized (visitPackageMembers false package ds).result := by
  have one : ∀ d, OnlyOversized (visitPackageMember false package d).result := by
    intro d
    cases d with
    | ofType t members => exact onlyOversized_visitMember package (.ofType t members)
    | ofExecutable | ofVariable | stray => exact Walk.onlyOversized_message fun _ => rfl
  induction ds with
  | nil => exact onlyOversized_of_isOk rfl
  | cons d ds ih => exact Walk.onlyOversized_bind (one d) fun _ => Walk.onlyOversized_bind_pure ih

theorem Directive.onlyOversized_visit (moduleName : String) (d : Directive) :
    OnlyOversized (d.visit moduleName).result := by
  have notes := onlyOversized_encodeAnnotations
  cases d with
  | requires m ms as =>
    rw [Directive.visit]
    split
    · exact onlyOversized_of_isOk rfl
    · exact Walk.onlyOversized_bind_pure (notes as)
  | exports p ts as => exact Walk.onlyOversized_bind_pure (notes as)
  | uses t => exact Walk.onlyOversized_bind_pure t.onlyOversized_encode
  | provides t ts as =>
    refine Walk.onlyOversized_bind t.onlyOversized_encode fun _ => ?_
    exact Walk.onlyOversized_bind (onlyOversized_encodeTypes ts) fun _ => Walk.onlyOversized_bind_pure (notes as)
  | stray f => exact Walk.onlyOversized_message fun _ => rfl

theorem Directive.onlyOversized_visitList (moduleName : String) (ds : List Directive) :
    OnlyOversized (Directive.visitList moduleName ds).result := by
  induction ds with
  | nil => exact onlyOversized_of_isOk rfl
  | cons d ds ih =>
    exact Walk.onlyOversized_bind (d.onlyOversized_visit moduleName) fun _ => Walk.onlyOversized_bind_pure ih

theorem Scope.onlyOversized_visit (s : Scope) : OnlyOversized (s.visit false).result := by
  cases s with
  | module m =>
    exact Walk.onlyOversized_bind (Directive.onlyOversized_visitList m.name m.directives) fun _ =>
      onlyOversized_of_isOk rfl
  | package p =>
    exact Walk.onlyOversized_bind (onlyOversized_visitPackageMembers p.name p.members) fun _ =>
      onlyOversized_of_isOk rfl

theorem onlyOversized_walkScopes (ss : List Scope) (i : Index) : OnlyOversized (walkScopes false i ss).result := by
  induction ss generalizing i with
  | nil => exact onlyOversized_of_isOk rfl
  | cons s ss ih => exact Walk.onlyOversized_bind s.onlyOversized_visit fun _ => ih _

/-! ## Walks with documentation -/

/-- Where all documentation is absent or a text, both walks over a program come to the same. -/
theorem Program.result_walk {p : Program} (text : p.hasTextDocs = true) (docs : Bool) :
    (p.walk docs).result = (p.walk false).result := by
  cases docs with
  | false => rfl
  | true =>
    have agree : p.walk false = (p.walk true).withoutDocs id := walkScopes_docs p.scopes text {}
    rw [agree, Walk.withoutDocs]
    cases (p.walk true).result <;> rfl

/-- Where all documentation is absent or a text, a walk stops only at an integer with too many digits. -/
theorem Program.onlyOversized_walk {p : Program} (text : p.hasTextDocs = true) (docs : Bool) :
    OnlyOversized (p.walk docs).result := by
  rw [result_walk text docs]
  exact onlyOversized_walkScopes p.scopes {}

end ProgramFacts
