import ProgramFacts.Facts.Scope
import ProgramFacts.Proofs.Walks

/-!
# When a walk comes to its end

Only two things in a program have no term: documentation that is given but is no text, and an integer with too many
digits, be it the value of an annotation's argument or part of something that has no place in a fact and is shown by a
warning. Not every annotation and not all documentation count, only what a fact shows, and documentation only if it is
wanted. A walk comes to its end if and only if all that it shows (`Shown`) is writable and the documentation that its
facts show has an atom. Where all documentation is absent or a text, only what is shown counts.
-/

namespace ProgramFacts

/-! ## Types, values and annotations -/

/-- The least integer that has too many digits. -/
theorem Numeral.not_isWritable_writableBound : Numeral.isWritable Numeral.writableBound = false := by
  rw [Numeral.isWritable, Int.natAbs_natCast]
  exact decide_eq_false (Nat.lt_irrefl _)

mutual

/-- Whether a warning can be given of everything in the type that is no type. Of the bounds of a wildcard only the one
that is shown counts. -/
def TypeExpr.isWritable : TypeExpr → Bool
  | .declared _ ts => TypeExpr.areWritable ts
  | .array t => t.isWritable
  | .wildcard (some t) _ => t.isWritable
  | .wildcard none (some t) => t.isWritable
  | .stray f => f.isDescribable
  | .wildcard none none | .primitive _ | .typeVariable _ | .noType _ | .other _ _ => true

def TypeExpr.areWritable : List TypeExpr → Bool
  | [] => true
  | t :: ts => t.isWritable && TypeExpr.areWritable ts

end

mutual

/-- Whether no integer in the value has too many digits. -/
def Value.isWritable : Value → Bool
  | .integer n => Numeral.isWritable n
  | .nested _ vs => Value.areArgumentsWritable vs
  | .list vs => Value.areWritable vs
  | .type t => t.isWritable
  | .stray f => f.isDescribable
  | .bool _ | .number _ | .text _ | .char _ | .enumConstant _ _ | .other _ _ => true

def Value.areWritable : List Value → Bool
  | [] => true
  | v :: vs => v.isWritable && Value.areWritable vs

def Value.areArgumentsWritable : List (String × Value) → Bool
  | [] => true
  | (_, v) :: vs => v.isWritable && Value.areArgumentsWritable vs

end

def Annotation.isWritable (a : Annotation) : Bool := Value.areArgumentsWritable a.arguments

/-- What a walk makes a text of. -/
inductive Shown
  /-- An annotation, in a fact. -/
  | note (a : Annotation)
  /-- A type, in a fact. -/
  | type (t : TypeExpr)
  /-- Anything else, in a message. -/
  | stray (f : Form)

/-- Whether a walk can make a text of it. -/
def Shown.isWritable : Shown → Bool
  | .note a => a.isWritable
  | .type t => t.isWritable
  | .stray f => f.isWritable

open Noted (isOk_bind isOk_bind_pure isOk_each)

theorem isOk_textOrOversized {α : Type} (writable : Bool) (text : String) (value : α) (w : String → Warning) :
    (Noted.ofResult (textOrOversized (if writable then some text else none)) >>= fun t => Noted.warn (w t) value).isOk =
      writable := by
  cases writable <;> rfl

mutual

/-- A type has a term if and only if it is writable. -/
theorem TypeExpr.isOk_encode : ∀ t : TypeExpr, t.encode.isOk = t.isWritable
  | .declared n ts => by rw [TypeExpr.encode, TypeExpr.isWritable, isOk_bind_pure, TypeExpr.isOk_encodeList ts]
  | .primitive _ => by rw [TypeExpr.encode, TypeExpr.isWritable, Noted.isOk_pure]
  | .array t => by rw [TypeExpr.encode, TypeExpr.isWritable, isOk_bind_pure, TypeExpr.isOk_encode t]
  | .typeVariable _ => by rw [TypeExpr.encode, TypeExpr.isWritable, Noted.isOk_pure]
  | .wildcard (some t) _ => by rw [TypeExpr.encode, TypeExpr.isWritable, isOk_bind_pure, TypeExpr.isOk_encode t]
  | .wildcard none (some t) => by rw [TypeExpr.encode, TypeExpr.isWritable, isOk_bind_pure, TypeExpr.isOk_encode t]
  | .wildcard none none => by rw [TypeExpr.encode, TypeExpr.isWritable, Noted.isOk_pure]
  | .noType _ => by rw [TypeExpr.encode, TypeExpr.isWritable, Noted.isOk_pure]
  | .other _ _ => by rw [TypeExpr.encode, TypeExpr.isWritable, Noted.isOk_warn]
  | .stray f => by
    rw [TypeExpr.encode, TypeExpr.isWritable]
    exact isOk_textOrOversized f.isDescribable f.describe _ _

theorem TypeExpr.isOk_encodeList : ∀ ts : List TypeExpr, (TypeExpr.encodeList ts).isOk = TypeExpr.areWritable ts
  | [] => by rw [TypeExpr.encodeList, TypeExpr.areWritable, Noted.isOk_pure]
  | t :: ts => by
    rw [TypeExpr.encodeList, TypeExpr.areWritable, isOk_bind fun _ => isOk_bind_pure, TypeExpr.isOk_encode t,
      TypeExpr.isOk_encodeList ts]

end

mutual

/-- A value has a term if and only if it is writable. -/
theorem Value.isOk_encode : ∀ v : Value, v.encode.isOk = v.isWritable
  | .bool _ => by rw [Value.encode, Value.isWritable, Noted.isOk_pure]
  | .integer n => by
    rw [Value.encode, Value.isWritable]
    split
    · next writable => rw [writable, Noted.isOk_pure]
    · next oversized => rw [Bool.not_eq_true] at oversized; rw [oversized]; rfl
  | .number _ => by rw [Value.encode, Value.isWritable, Noted.isOk_pure]
  | .text _ => by rw [Value.encode, Value.isWritable, Noted.isOk_pure]
  | .char _ => by rw [Value.encode, Value.isWritable, Noted.isOk_pure]
  | .enumConstant _ _ => by rw [Value.encode, Value.isWritable, Noted.isOk_pure]
  | .nested _ vs => by rw [Value.encode, Value.isWritable, isOk_bind_pure, Value.isOk_encodeArguments vs]
  | .list vs => by rw [Value.encode, Value.isWritable, isOk_bind_pure, Value.isOk_encodeList vs]
  | .type t => by rw [Value.encode, Value.isWritable, TypeExpr.isOk_encode t]
  | .other _ _ => by rw [Value.encode, Value.isWritable, Noted.isOk_warn]
  | .stray f => by
    rw [Value.encode, Value.isWritable]
    exact isOk_textOrOversized f.isDescribable f.describe _ _

theorem Value.isOk_encodeList : ∀ vs : List Value, (Value.encodeList vs).isOk = Value.areWritable vs
  | [] => by rw [Value.encodeList, Value.areWritable, Noted.isOk_pure]
  | v :: vs => by
    rw [Value.encodeList, Value.areWritable, isOk_bind fun _ => isOk_bind_pure, Value.isOk_encode v,
      Value.isOk_encodeList vs]

theorem Value.isOk_encodeArguments :
    ∀ vs : List (String × Value), (Value.encodeArguments vs).isOk = Value.areArgumentsWritable vs
  | [] => by rw [Value.encodeArguments, Value.areArgumentsWritable, Noted.isOk_pure]
  | (_, v) :: vs => by
    rw [Value.encodeArguments, Value.areArgumentsWritable, isOk_bind fun _ => isOk_bind_pure, Value.isOk_encode v,
      Value.isOk_encodeArguments vs]

end

/-! ## The recurring parts of declarations -/

/-- Annotations in a fact. -/
def shownNotes (as : List Annotation) : List Shown := as.map .note

/-- Types in a fact. -/
def shownTypes (ts : List TypeExpr) : List Shown := ts.map .type

def TypeParameter.shown (p : TypeParameter) : List Shown := shownTypes p.bounds ++ shownNotes p.annotations

def Parameter.shown (p : Parameter) : List Shown := .type p.type :: shownNotes p.annotations

def RecordComponent.shown (c : RecordComponent) : List Shown := .type c.type :: shownNotes c.annotations

theorem isOk_encodeAnnotations (as : List Annotation) :
    (encodeAnnotations as).isOk = (shownNotes as).all Shown.isWritable := by
  rw [encodeAnnotations, isOk_bind_pure, isOk_each, shownNotes, List.all_map]
  congr 1
  funext a
  unfold Annotation.encode
  rw [isOk_bind_pure, Value.isOk_encodeArguments]
  rfl

theorem TypeExpr.areWritable_eq (ts : List TypeExpr) :
    TypeExpr.areWritable ts = (shownTypes ts).all Shown.isWritable := by
  induction ts with
  | nil => rfl
  | cons t ts ih =>
    rw [TypeExpr.areWritable, ih]
    rfl

theorem isOk_encodeTypes (ts : List TypeExpr) : (encodeTypes ts).isOk = (shownTypes ts).all Shown.isWritable := by
  rw [encodeTypes, isOk_bind_pure, TypeExpr.isOk_encodeList, TypeExpr.areWritable_eq]

theorem TypeExpr.isOk_shown (t : TypeExpr) : t.encode.isOk = (shownTypes [t]).all Shown.isWritable := by
  rw [TypeExpr.isOk_encode]
  exact (Bool.and_true _).symm

/-- Types that are each given a place of their own. -/
theorem isOk_eachType {encode : TypeExpr → Noted Term} (each : ∀ t, (encode t).isOk = t.isWritable)
    (ts : List TypeExpr) : (Noted.each encode ts).isOk = (shownTypes ts).all Shown.isWritable := by
  rw [isOk_each, shownTypes, List.all_map]
  simp only [each]
  rfl

theorem isOk_encodeTypeParameters (ps : List TypeParameter) :
    (encodeTypeParameters ps).isOk = (ps.flatMap TypeParameter.shown).all Shown.isWritable := by
  have one : ∀ p : TypeParameter, p.encode.isOk = p.shown.all Shown.isWritable := by
    intro p
    rw [TypeParameter.encode, isOk_bind fun _ => isOk_bind_pure, isOk_encodeTypes, isOk_encodeAnnotations,
      TypeParameter.shown, List.all_append]
  rw [encodeTypeParameters, isOk_bind_pure, isOk_each, List.all_flatMap]
  simp only [one]

theorem isOk_encodeParameters (ps : List Parameter) :
    (encodeParameters ps).isOk = (ps.flatMap Parameter.shown).all Shown.isWritable := by
  have one : ∀ p : Parameter, p.encode.isOk = p.shown.all Shown.isWritable := by
    intro p
    rw [Parameter.encode, isOk_bind fun _ => isOk_bind_pure, TypeExpr.isOk_encode, isOk_encodeAnnotations]
    rfl
  rw [encodeParameters, isOk_bind_pure, isOk_each, List.all_flatMap]
  simp only [one]

theorem isOk_encodeComponents (cs : List RecordComponent) :
    (encodeComponents cs).isOk = (cs.flatMap RecordComponent.shown).all Shown.isWritable := by
  have one : ∀ c : RecordComponent, c.encode.isOk = c.shown.all Shown.isWritable := by
    intro c
    rw [RecordComponent.encode, isOk_bind fun _ => isOk_bind_pure, TypeExpr.isOk_encode, isOk_encodeAnnotations]
    rfl
  rw [encodeComponents, isOk_bind_pure, isOk_each, List.all_flatMap]
  simp only [one]

theorem isOk_encodeThrows (ts : List TypeExpr) : (encodeThrows ts).isOk = (shownTypes ts).all Shown.isWritable := by
  have one : ∀ t, (encodeThrown t).isOk = t.isWritable := by
    intro t
    rw [encodeThrown, isOk_bind_pure, TypeExpr.isOk_encode]
  rw [encodeThrows, isOk_bind_pure, isOk_eachType one]

theorem isOk_encodeImplements (ts : List TypeExpr) :
    (encodeImplements ts).isOk = (shownTypes ts).all Shown.isWritable := by
  have one : ∀ t, (encodeInterface t).isOk = t.isWritable := by
    intro t
    rw [encodeInterface, isOk_bind_pure, TypeExpr.isOk_encode]
  rw [encodeImplements, isOk_bind_pure, isOk_eachType one]

/-- What goes without saying holds nothing that is no type. -/
theorem TypeExpr.isWritable_of_isImplied {t : TypeExpr} (implied : t.isImplied = true) : t.isWritable = true := by
  unfold TypeExpr.isImplied at implied
  split at implied
  · rfl
  · rfl
  · cases implied

theorem isOk_encodeExtends (t? : Option TypeExpr) :
    (encodeExtends t?).isOk = (shownTypes t?.toList).all Shown.isWritable := by
  cases t? with
  | none => rfl
  | some t =>
    rw [encodeExtends, Option.toList_some, ← TypeExpr.isOk_shown]
    split
    · next implied => rw [TypeExpr.isOk_encode, TypeExpr.isWritable_of_isImplied implied, Noted.isOk_pure]
    · exact isOk_bind_pure

/-! ## Documentation -/

/-- Whether documentation is absent or a text. -/
def Document.isTextOrNull : Document → Bool
  | .scalar .null => true
  | .scalar (.text _) => true
  | _ => false

/-- Whether documentation is a text, or counts as not given. -/
def Document.isProse : Document → Bool
  | .scalar (.text _) => true
  | d => !d.isGiven

/-- Whether documentation has an atom: it does if it is not wanted, else if it is prose. -/
def Document.hasAtom (docs : Bool) (doc : Document) : Bool := !docs || doc.isProse

theorem isOk_ofResult_encodeDoc (docs : Bool) (doc : Document) :
    (Walk.ofResult (encodeDoc docs doc)).isOk = doc.hasAtom docs := by
  unfold Document.hasAtom encodeDoc
  cases docs with
  | false => rfl
  | true =>
    by_cases given : doc.isGiven = true
    · have absent : false = !doc.isGiven := by rw [given]; rfl
      rw [Bool.true_and, if_pos given]
      cases doc with
      | scalar s =>
        cases s with
        | text s => rfl
        | _ => exact absent
      | _ => exact absent
    · rw [Bool.true_and, if_neg given]
      rw [Bool.not_eq_true] at given
      unfold Document.isProse
      split
      · rfl
      · rw [given]
        rfl

theorem Document.hasAtom_of_isTextOrNull {doc : Document} (text : doc.isTextOrNull = true) (docs : Bool) :
    doc.hasAtom docs = true := by
  unfold Document.isTextOrNull at text
  split at text
  · exact Bool.or_true _
  · exact Bool.or_true _
  · cases text

theorem isOk_encodeDoc {doc : Document} (text : doc.isTextOrNull = true) (docs : Bool) :
    (Walk.ofResult (encodeDoc docs doc)).isOk = true := by
  rw [isOk_ofResult_encodeDoc, Document.hasAtom_of_isTextOrNull text]

/-! ## Declarations -/

/-- What the fact of a method or of a constructor shows; only a method has a result. -/
def Executable.shown (e : Executable) : List Shown :=
  if e.kind = "METHOD" ∨ e.kind = "CONSTRUCTOR" then
    e.typeParameters.flatMap TypeParameter.shown ++ (if e.kind = "METHOD" then shownTypes [e.returnType] else []) ++
      e.parameters.flatMap Parameter.shown ++ shownTypes e.thrownTypes ++ shownNotes e.annotations
  else []

/-- The documentation that the fact of a method or of a constructor shows. -/
def Executable.shownDocs (e : Executable) : List Document :=
  if e.kind = "METHOD" ∨ e.kind = "CONSTRUCTOR" then [e.doc] else []

/-- What the fact of a field shows. -/
def Variable.shown (v : Variable) : List Shown :=
  if v.kind = "FIELD" then .type v.type :: shownNotes v.annotations else []

/-- The documentation that the fact of a field shows. -/
def Variable.shownDocs (v : Variable) : List Document := if v.kind = "FIELD" then [v.doc] else []

/-- What the fact of a type shows, apart from its members. -/
def TypeHead.shown (t : TypeHead) : TypeShape → List Shown
  | .classType =>
    t.typeParameters.flatMap TypeParameter.shown ++ shownTypes t.superclass.toList ++ shownTypes t.interfaces ++
      shownNotes t.annotations
  | .interface =>
    t.typeParameters.flatMap TypeParameter.shown ++ shownTypes t.interfaces ++ shownNotes t.annotations
  | .enumeration => shownTypes t.interfaces ++ shownNotes t.annotations
  | .annotationType => shownNotes t.annotations
  | .record =>
    t.typeParameters.flatMap TypeParameter.shown ++ shownTypes t.interfaces ++
      t.components.flatMap RecordComponent.shown ++ shownNotes t.annotations

mutual

/-- What the walk of a declaration comes to. -/
def Declaration.shown : Declaration → List Shown
  | .ofType t ds =>
    match TypeShape.ofKind? t.kind with
    | none => []
    | some shape => Declaration.shownIn ds ++ t.shown shape
  | .ofExecutable e => e.shown
  | .ofVariable v => v.shown
  | .stray f => [.stray f]

def Declaration.shownIn : List Declaration → List Shown
  | [] => []
  | d :: ds => d.shown ++ Declaration.shownIn ds

end

mutual

/-- The documentation that the walk of a declaration comes to. -/
def Declaration.shownDocs : Declaration → List Document
  | .ofType t ds =>
    match TypeShape.ofKind? t.kind with
    | none => []
    | some _ => Declaration.shownDocsIn ds ++ [t.doc]
  | .ofExecutable e => e.shownDocs
  | .ofVariable v => v.shownDocs
  | .stray _ => []

def Declaration.shownDocsIn : List Declaration → List Document
  | [] => []
  | d :: ds => d.shownDocs ++ Declaration.shownDocsIn ds

end

/-- Whether every integer that the walk of a declaration comes to has few enough digits. -/
def Declaration.isWritable (d : Declaration) : Bool := d.shown.all Shown.isWritable

mutual

/-- All documentation in a declaration. -/
def Declaration.docs : Declaration → List Document
  | .ofType t ds => t.doc :: Declaration.docsIn ds
  | .ofExecutable e => [e.doc]
  | .ofVariable v => [v.doc]
  | .stray _ => []

def Declaration.docsIn : List Declaration → List Document
  | [] => []
  | d :: ds => d.docs ++ Declaration.docsIn ds

end

/-- Whether all documentation in a declaration is absent or a text. -/
def Declaration.hasTextDocs (d : Declaration) : Bool := d.docs.all Document.isTextOrNull

theorem Declaration.hasTextDocs_ofType {t : TypeHead} {ds : List Declaration} :
    (Declaration.ofType t ds).hasTextDocs = true ↔
      t.doc.isTextOrNull = true ∧ (Declaration.docsIn ds).all Document.isTextOrNull = true := by
  rw [Declaration.hasTextDocs, Declaration.docs, List.all_cons, Bool.and_eq_true]

theorem Declaration.hasTextDocs_ofExecutable {e : Executable} :
    (Declaration.ofExecutable e).hasTextDocs = true ↔ e.doc.isTextOrNull = true := by
  simp [Declaration.hasTextDocs, Declaration.docs]

theorem Declaration.hasTextDocs_ofVariable {v : Variable} :
    (Declaration.ofVariable v).hasTextDocs = true ↔ v.doc.isTextOrNull = true := by
  simp [Declaration.hasTextDocs, Declaration.docs]

/-- The documentation in a list of declarations is that of its parts. -/
theorem Declaration.docsIn_all {d : Declaration} {ds : List Declaration}
    (text : (Declaration.docsIn (d :: ds)).all Document.isTextOrNull = true) :
    d.hasTextDocs = true ∧ (Declaration.docsIn ds).all Document.isTextOrNull = true := by
  rwa [Declaration.docsIn, List.all_append, Bool.and_eq_true] at text

open Walk (isOk_then isOk_before isOk_after)

theorem Executable.isOk_visit (e : Executable) (docs : Bool) :
    (e.visit docs).isOk = (e.shown.all Shown.isWritable && e.shownDocs.all (Document.hasAtom docs)) := by
  have noted := isOk_ofResult_encodeDoc docs e.doc
  rw [Executable.visit, Executable.shown, Executable.shownDocs]
  split
  · next method =>
    rw [if_pos (Or.inl method), if_pos (Or.inl method)]
    simp only [List.all_append, Bool.and_assoc, List.all_cons, List.all_nil, Bool.and_true]
    refine isOk_then (isOk_encodeTypeParameters _) fun _ => isOk_then (TypeExpr.isOk_shown _) fun _ => ?_
    refine isOk_then (isOk_encodeParameters _) fun _ => isOk_then (isOk_encodeThrows _) fun _ => ?_
    exact isOk_then (isOk_encodeAnnotations _) fun _ => isOk_before noted fun _ => rfl
  · split
    · next constructor =>
      rw [if_pos (Or.inr constructor), if_pos (Or.inr constructor), List.append_nil]
      simp only [List.all_append, Bool.and_assoc, List.all_cons, List.all_nil, Bool.and_true]
      refine isOk_then (isOk_encodeTypeParameters _) fun _ => isOk_then (isOk_encodeParameters _) fun _ => ?_
      refine isOk_then (isOk_encodeThrows _) fun _ => ?_
      exact isOk_then (isOk_encodeAnnotations _) fun _ => isOk_before noted fun _ => rfl
    · next method constructor =>
      rw [if_neg (not_or.2 ⟨method, constructor⟩), if_neg (not_or.2 ⟨method, constructor⟩)]
      rfl

/-- A field is none of the variables that other scopes account for. -/
theorem Variable.kind_ne_field {v : Variable} (ignored : v.kind ∈ ignoredVariableKinds) : v.kind ≠ "FIELD" := by
  intro field
  rw [field] at ignored
  exact absurd ignored (by decide)

theorem Variable.isOk_visit (v : Variable) (docs : Bool) :
    (v.visit docs).isOk = (v.shown.all Shown.isWritable && v.shownDocs.all (Document.hasAtom docs)) := by
  have noted := isOk_ofResult_encodeDoc docs v.doc
  rw [Variable.visit, Variable.shown, Variable.shownDocs]
  split
  · next ignored =>
    rw [if_neg (Variable.kind_ne_field ignored), if_neg (Variable.kind_ne_field ignored)]
    rfl
  · split
    · rw [List.all_cons, List.all_cons, List.all_nil, Bool.and_true, Bool.and_assoc]
      refine isOk_then (TypeExpr.isOk_encode _) fun _ => ?_
      exact isOk_then (isOk_encodeAnnotations _) fun _ => isOk_before noted fun _ => rfl
    · rfl

namespace TypeHead

theorem isOk_fact (t : TypeHead) (docs : Bool) (package : String) (members : List Term) (shape : TypeShape) :
    (t.fact docs package members shape).isOk =
      ((t.shown shape).all Shown.isWritable && t.doc.hasAtom docs) := by
  have noted := isOk_ofResult_encodeDoc docs t.doc
  -- annotations and documentation come last in every shape
  have last : ∀ build : Term → Term → Term,
      (Walk.ofNoted (encodeAnnotations t.annotations) >>= fun notes =>
        Walk.ofResult (encodeDoc docs t.doc) >>= fun doc => (pure (build notes doc) : Walk Term)).isOk =
        ((shownNotes t.annotations).all Shown.isWritable && t.doc.hasAtom docs) := by
    intro build
    exact isOk_then (isOk_encodeAnnotations _) fun _ => isOk_before noted fun _ => rfl
  cases shape with
  | classType =>
    simp only [fact, shown, List.all_append, Bool.and_assoc]
    refine isOk_then (isOk_encodeTypeParameters _) fun _ => isOk_then (isOk_encodeExtends _) fun _ => ?_
    exact isOk_then (isOk_encodeImplements _) fun _ => last _
  | interface =>
    simp only [fact, shown, List.all_append, Bool.and_assoc]
    refine isOk_then (isOk_encodeTypeParameters _) fun _ => ?_
    exact isOk_then (isOk_encodeImplements _) fun _ => last _
  | enumeration =>
    simp only [fact, shown, List.all_append, Bool.and_assoc]
    exact isOk_then (isOk_encodeImplements _) fun _ => last _
  | annotationType => exact last _
  | record =>
    simp only [fact, shown, List.all_append, Bool.and_assoc]
    refine isOk_then (isOk_encodeTypeParameters _) fun _ => isOk_then (isOk_encodeImplements _) fun _ => ?_
    exact isOk_then (isOk_encodeComponents _) fun _ => last _

/-- A type comes to its end if its members do and its own fact does; one of no known shape does in any case. -/
theorem isOk_visitWith (t : TypeHead) (docs : Bool) (package : String) (members : Walk (List Term)) :
    (t.visitWith docs package members).isOk =
      match TypeShape.ofKind? t.kind with
      | none => true
      | some shape => members.isOk && ((t.shown shape).all Shown.isWritable && t.doc.hasAtom docs) := by
  rw [visitWith]
  cases TypeShape.ofKind? t.kind with
  | none => rfl
  | some shape =>
    exact isOk_then rfl fun ms => isOk_before (isOk_fact t docs package ms shape) fun _ => rfl

end TypeHead

/-- What is left out is told if it can be shown. -/
theorem isOk_message {α : Type} (writable : Bool) (text : String) (told : String → Warning) (a : α) :
    (Walk.ofResult (textOrOversized (if writable then some text else none)) >>= fun t =>
      Walk.skip (told t) >>= fun _ => (pure a : Walk α)).isOk = writable := by
  cases writable <;> rfl

/-- What is shown first and what is shown after it: both have to hold of the one and of the other. -/
theorem all_append_and {α β : Type} (f : α → Bool) (g : β → Bool) (as as' : List α) (bs bs' : List β) :
    ((as ++ as').all f && (bs ++ bs').all g) = ((as.all f && bs.all g) && (as'.all f && bs'.all g)) := by
  rw [List.all_append, List.all_append]
  ac_rfl

mutual

/-- The walk of a declaration comes to its end if and only if all that it shows has a term. -/
theorem isOk_visitMember_eq (docs : Bool) (package : String) : ∀ d : Declaration,
    (visitMember docs package d).isOk = (d.shown.all Shown.isWritable && d.shownDocs.all (Document.hasAtom docs))
  | .ofType t ds => by
    have same : (visitMember docs package (.ofType t ds)).isOk =
        (t.visitWith docs package (visitMembers docs package ds)).isOk := by
      rw [visitMember]
      exact isOk_before rfl fun _ => rfl
    rw [same, TypeHead.isOk_visitWith, isOk_visitMembers_eq docs package ds, Declaration.shown, Declaration.shownDocs]
    cases TypeShape.ofKind? t.kind with
    | none => rfl
    | some shape =>
      simp only [all_append_and, List.all_cons, List.all_nil, Bool.and_true]
  | .ofExecutable e => by rw [visitMember, Executable.isOk_visit, Declaration.shown, Declaration.shownDocs]
  | .ofVariable v => by rw [visitMember, Variable.isOk_visit, Declaration.shown, Declaration.shownDocs]
  | .stray f => by
    rw [visitMember, Declaration.shown, Declaration.shownDocs]
    change _ = (f.isWritable && true && true)
    rw [Bool.and_true, Bool.and_true]
    exact isOk_message f.isWritable f.shown _ _

theorem isOk_visitMembers_eq (docs : Bool) (package : String) : ∀ ds : List Declaration,
    (visitMembers docs package ds).isOk =
      ((Declaration.shownIn ds).all Shown.isWritable && (Declaration.shownDocsIn ds).all (Document.hasAtom docs))
  | [] => by
    rw [visitMembers]
    rfl
  | d :: ds => by
    rw [visitMembers, Declaration.shownIn, Declaration.shownDocsIn, all_append_and]
    refine isOk_then (isOk_visitMember_eq docs package d) fun _ => ?_
    exact isOk_before (isOk_visitMembers_eq docs package ds) fun _ => rfl

end

mutual

/-- The documentation that is shown is part of all documentation. -/
theorem Declaration.shownDocs_subset : ∀ d : Declaration, d.shownDocs ⊆ d.docs
  | .ofType t ds => by
    rw [Declaration.shownDocs, Declaration.docs]
    cases TypeShape.ofKind? t.kind with
    | none => exact List.nil_subset _
    | some shape =>
      have inner := Declaration.shownDocsIn_subset ds
      intro doc there
      rcases List.mem_append.1 there with nested | own
      · exact List.mem_cons_of_mem _ (inner nested)
      · rw [List.mem_singleton.1 own]
        exact List.mem_cons_self
  | .ofExecutable e => by
    rw [Declaration.shownDocs, Declaration.docs, Executable.shownDocs]
    split
    · exact List.Subset.refl _
    · exact List.nil_subset _
  | .ofVariable v => by
    rw [Declaration.shownDocs, Declaration.docs, Variable.shownDocs]
    split
    · exact List.Subset.refl _
    · exact List.nil_subset _
  | .stray f => List.nil_subset _

theorem Declaration.shownDocsIn_subset : ∀ ds : List Declaration, Declaration.shownDocsIn ds ⊆ Declaration.docsIn ds
  | [] => List.nil_subset _
  | d :: ds => by
    rw [Declaration.shownDocsIn, Declaration.docsIn]
    apply List.append_subset.2
    constructor
    · exact List.subset_append_of_subset_left _ (Declaration.shownDocs_subset d)
    · exact List.subset_append_of_subset_right _ (Declaration.shownDocsIn_subset ds)

end

/-- Documentation that is shown has an atom if all documentation is absent or a text. -/
theorem Document.all_hasAtom {shown all : List Document} (subset : shown ⊆ all)
    (text : all.all Document.isTextOrNull = true) (docs : Bool) : shown.all (Document.hasAtom docs) = true := by
  rw [List.all_eq_true]
  intro doc there
  exact Document.hasAtom_of_isTextOrNull (List.all_eq_true.1 text doc (subset there)) docs

theorem isOk_visitMember (docs : Bool) (package : String) (d : Declaration) (text : d.hasTextDocs = true) :
    (visitMember docs package d).isOk = d.shown.all Shown.isWritable := by
  rw [isOk_visitMember_eq, Document.all_hasAtom d.shownDocs_subset text, Bool.and_true]

/-! ## Scopes -/

/-- What the term of a directive shows; a requirement that goes without saying has none. -/
def Directive.shown : Directive → List Shown
  | .requires m ms as => if isImpliedRequirement m ms then [] else shownNotes as
  | .exports _ _ as => shownNotes as
  | .uses t => shownTypes [t]
  | .provides t ts as => shownTypes [t] ++ shownTypes ts ++ shownNotes as
  | .stray f => [.stray f]

/-- What the walk of a member of a package comes to. Only a type has a fact there; what is no declaration is shown by
its kind, if it has one. -/
def Declaration.shownInPackage : Declaration → List Shown
  | .ofType t ds => (Declaration.ofType t ds).shown
  | .ofExecutable _ | .ofVariable _ => []
  | .stray f => [.stray f.kindOrSelf]

/-- The documentation that the walk of a member of a package comes to. -/
def Declaration.shownDocsInPackage : Declaration → List Document
  | .ofType t ds => (Declaration.ofType t ds).shownDocs
  | .ofExecutable _ | .ofVariable _ | .stray _ => []

/-- What the walk of a scope comes to. -/
def Scope.shown : Scope → List Shown
  | .module m => m.directives.flatMap Directive.shown
  | .package p => p.members.flatMap Declaration.shownInPackage

/-- All documentation that the walk of a scope may come to. -/
def Scope.docs : Scope → List Document
  | .module _ => []
  | .package p => Declaration.docsIn p.members

/-- The documentation that the walk of a scope comes to. -/
def Scope.shownDocs : Scope → List Document
  | .module _ => []
  | .package p => p.members.flatMap Declaration.shownDocsInPackage

/-- What the walk of a program comes to. -/
def Program.shown (p : Program) : List Shown := p.scopes.flatMap Scope.shown

/-- Whether every integer that the walk of a program comes to has few enough digits. -/
def Program.isWritable (p : Program) : Bool := p.shown.all Shown.isWritable

/-- The documentation that the walk of a program comes to. -/
def Program.shownDocs (p : Program) : List Document := p.scopes.flatMap Scope.shownDocs

/-- Whether all documentation of declarations is absent or a text. -/
def Program.hasTextDocs (p : Program) : Bool := (p.scopes.flatMap Scope.docs).all Document.isTextOrNull

theorem Directive.isOk_visit (moduleName : String) (d : Directive) :
    (d.visit moduleName).isOk = d.shown.all Shown.isWritable := by
  cases d with
  | requires m ms as =>
    rw [Directive.visit, Directive.shown]
    split
    · rfl
    · exact isOk_before (isOk_encodeAnnotations as) fun _ => rfl
  | exports p ts as => exact isOk_before (isOk_encodeAnnotations as) fun _ => rfl
  | uses t => exact isOk_before (TypeExpr.isOk_shown t) fun _ => rfl
  | provides t ts as =>
    rw [Directive.shown, List.all_append, List.all_append, Bool.and_assoc]
    refine isOk_then (TypeExpr.isOk_shown t) fun _ => isOk_then (isOk_encodeTypes ts) fun _ => ?_
    exact isOk_before (isOk_encodeAnnotations as) fun _ => rfl
  | stray f =>
    change _ = (f.isWritable && true)
    rw [Bool.and_true]
    exact isOk_message f.isWritable f.shown _ _

theorem Directive.isOk_visitList (moduleName : String) (ds : List Directive) :
    (Directive.visitList moduleName ds).isOk = (ds.flatMap Directive.shown).all Shown.isWritable := by
  induction ds with
  | nil => rfl
  | cons d ds ih =>
    rw [Directive.visitList, List.flatMap_cons, List.all_append]
    exact isOk_then (Directive.isOk_visit moduleName d) fun _ => isOk_before ih fun _ => rfl

/-- A type is walked alike in a package and in a type. -/
theorem visitPackageMember_ofType (docs : Bool) (package : String) (t : TypeHead) (ds : List Declaration) :
    visitPackageMember docs package (.ofType t ds) = visitMember docs package (.ofType t ds) := by
  rw [visitPackageMember, visitMember, visitType]

theorem isOk_visitPackageMember (docs : Bool) (package : String) (d : Declaration) :
    (visitPackageMember docs package d).isOk =
      (d.shownInPackage.all Shown.isWritable && d.shownDocsInPackage.all (Document.hasAtom docs)) := by
  cases d with
  | ofType t members => rw [visitPackageMember_ofType, isOk_visitMember_eq, Declaration.shownInPackage,
      Declaration.shownDocsInPackage]
  | ofExecutable e => rfl
  | ofVariable v => rfl
  | stray f =>
    change _ = (f.kindOrSelf.isWritable && true && true)
    rw [Bool.and_true, Bool.and_true]
    exact isOk_message f.kindOrSelf.isWritable f.kindOrSelf.shown _ _

theorem isOk_visitPackageMembers (docs : Bool) (package : String) (ds : List Declaration) :
    (visitPackageMembers docs package ds).isOk =
      ((ds.flatMap Declaration.shownInPackage).all Shown.isWritable &&
        (ds.flatMap Declaration.shownDocsInPackage).all (Document.hasAtom docs)) := by
  induction ds with
  | nil => rfl
  | cons d ds ih =>
    rw [visitPackageMembers, List.flatMap_cons, List.flatMap_cons, all_append_and]
    exact isOk_then (isOk_visitPackageMember docs package d) fun _ => isOk_before ih fun _ => rfl

theorem Scope.isOk_visit (s : Scope) (docs : Bool) :
    (s.visit docs).isOk = (s.shown.all Shown.isWritable && s.shownDocs.all (Document.hasAtom docs)) := by
  cases s with
  | module m =>
    rw [Scope.shownDocs, List.all_nil, Bool.and_true]
    exact isOk_before (Directive.isOk_visitList m.name m.directives) fun _ => rfl
  | package p => exact isOk_before (isOk_visitPackageMembers docs p.name p.members) fun _ => rfl

theorem isOk_walkScopes (docs : Bool) (ss : List Scope) (i : Index) :
    (walkScopes docs i ss).isOk =
      ((ss.flatMap Scope.shown).all Shown.isWritable &&
        (ss.flatMap Scope.shownDocs).all (Document.hasAtom docs)) := by
  induction ss generalizing i with
  | nil => rfl
  | cons s ss ih =>
    rw [walkScopes, List.flatMap_cons, List.flatMap_cons, all_append_and]
    exact isOk_then (Scope.isOk_visit s docs) fun _ => ih _

/-- **When a walk comes to its end**: if and only if every integer that it comes to can be written, and all
documentation that its facts show has an atom. -/
theorem Program.isOk_walk_eq (p : Program) (docs : Bool) :
    (p.walk docs).isOk = (p.isWritable && p.shownDocs.all (Document.hasAtom docs)) :=
  isOk_walkScopes docs p.scopes {}

theorem Declaration.shownDocsInPackage_subset (d : Declaration) : d.shownDocsInPackage ⊆ d.docs := by
  cases d with
  | ofType t ds => exact Declaration.shownDocs_subset _
  | ofExecutable e => exact List.nil_subset _
  | ofVariable v => exact List.nil_subset _
  | stray f => exact List.nil_subset _

theorem Scope.shownDocs_subset (s : Scope) : s.shownDocs ⊆ s.docs := by
  cases s with
  | module m => exact List.nil_subset _
  | package p =>
    rw [Scope.shownDocs, Scope.docs]
    induction p.members with
    | nil => exact List.nil_subset _
    | cons d ds ih =>
      rw [List.flatMap_cons, Declaration.docsIn]
      exact List.append_subset.2 ⟨List.subset_append_of_subset_left _ d.shownDocsInPackage_subset,
        List.subset_append_of_subset_right _ ih⟩

/-- Where all documentation is absent or a text, a walk comes to its end if and only if every integer that it comes to
can be written. -/
theorem Program.isOk_walk {p : Program} (text : p.hasTextDocs = true) (docs : Bool) :
    (p.walk docs).isOk = p.isWritable := by
  have subset : p.shownDocs ⊆ p.scopes.flatMap Scope.docs := by
    intro doc there
    obtain ⟨s, inside, shown⟩ := List.mem_flatMap.1 there
    exact List.mem_flatMap.2 ⟨s, inside, s.shownDocs_subset shown⟩
  rw [isOk_walk_eq, Document.all_hasAtom subset text, Bool.and_true]

end ProgramFacts
