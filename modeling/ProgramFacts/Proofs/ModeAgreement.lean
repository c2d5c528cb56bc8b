import ProgramFacts.Proofs.ScopeIsolation

/-!
# Walks with and without documentation

A walk without documentation is the walk with documentation over a program from which all documentation has been taken
away. Both walks over one program do the same in the same order: they write under the same keys, warn, count and end
alike. The facts are the same but for the atoms of documentation, which `Term.withoutDocs` empties.
-/

namespace ProgramFacts

/-! ## Declarations without documentation -/

def Executable.withoutDoc (e : Executable) : Executable := { e with doc := .null }

def Variable.withoutDoc (v : Variable) : Variable := { v with doc := .null }

def TypeHead.withoutDoc (t : TypeHead) : TypeHead := { t with doc := .null }

mutual

/-- The declaration with no documentation, its own or that of its members at any depth. -/
def Declaration.withoutDocs : Declaration → Declaration
  | .ofType t ds => .ofType t.withoutDoc (Declaration.withoutDocsIn ds)
  | .ofExecutable e => .ofExecutable e.withoutDoc
  | .ofVariable v => .ofVariable v.withoutDoc
  | .stray f => .stray f

def Declaration.withoutDocsIn : List Declaration → List Declaration
  | [] => []
  | d :: ds => d.withoutDocs :: Declaration.withoutDocsIn ds

end

def Package.withoutDocs (p : Package) : Package := { p with members := Declaration.withoutDocsIn p.members }

def Scope.withoutDocs : Scope → Scope
  | .module m => .module m
  | .package p => .package p.withoutDocs

/-- The program with no documentation of types, executables and variables. -/
def Program.withoutDocs (p : Program) : Program := { p with packages := p.packages.map Package.withoutDocs }

theorem encodeDoc_null : encodeDoc true .null = .ok (.atom "") := rfl

theorem encodeDoc_unwanted (doc : Document) : encodeDoc false doc = .ok (.atom "") := rfl

theorem Executable.visit_withoutDoc (e : Executable) : e.withoutDoc.visit true = e.visit false := by
  simp only [Executable.visit, Executable.withoutDoc, encodeDoc_null, encodeDoc_unwanted]
  rfl

theorem Variable.visit_withoutDoc (v : Variable) : v.withoutDoc.visit true = v.visit false := by
  simp only [Variable.visit, Variable.withoutDoc, encodeDoc_null, encodeDoc_unwanted]
  rfl

theorem TypeHead.fact_withoutDoc (t : TypeHead) (package : String) (members : List Term) (shape : TypeShape) :
    t.withoutDoc.fact true package members shape = t.fact false package members shape := by
  cases shape <;> simp only [TypeHead.fact, TypeHead.withoutDoc, encodeDoc_null, encodeDoc_unwanted]

theorem TypeHead.visitWith_withoutDoc (t : TypeHead) (package : String) (members : Walk (List Term)) :
    t.withoutDoc.visitWith true package members = t.visitWith false package members := by
  have kind : t.withoutDoc.kind = t.kind := rfl
  have name : t.withoutDoc.name = t.name := rfl
  rw [TypeHead.visitWith, TypeHead.visitWith, kind, name]
  simp only [TypeHead.fact_withoutDoc]

mutual

theorem visitMember_withoutDocs (package : String) :
    ∀ d : Declaration, visitMember true package d.withoutDocs = visitMember false package d
  | .ofType t ds => by
    have marker : t.withoutDoc.marker = t.marker := rfl
    rw [Declaration.withoutDocs, visitMember, visitMember, visitMembers_withoutDocs package ds,
      TypeHead.visitWith_withoutDoc, marker]
  | .ofExecutable e => by
    rw [Declaration.withoutDocs, visitMember, visitMember, Executable.visit_withoutDoc]
  | .ofVariable v => by
    rw [Declaration.withoutDocs, visitMember, visitMember, Variable.visit_withoutDoc]
  | .stray f => by
    rw [Declaration.withoutDocs, visitMember, visitMember]

theorem visitMembers_withoutDocs (package : String) :
    ∀ ds : List Declaration, visitMembers true package (Declaration.withoutDocsIn ds) = visitMembers false package ds
  | [] => by rw [Declaration.withoutDocsIn, visitMembers, visitMembers]
  | d :: ds => by
    rw [Declaration.withoutDocsIn, visitMembers, visitMembers, visitMember_withoutDocs package d,
      visitMembers_withoutDocs package ds]

end

theorem visitPackageMembers_withoutDocs (package : String) (ds : List Declaration) :
    visitPackageMembers true package (Declaration.withoutDocsIn ds) = visitPackageMembers false package ds := by
  induction ds with
  | nil => rw [Declaration.withoutDocsIn, visitPackageMembers, visitPackageMembers]
  | cons d ds ih =>
    have first : visitPackageMember true package d.withoutDocs = visitPackageMember false package d := by
      cases d with
      | ofType t members =>
        have same := visitMember_withoutDocs package (.ofType t members)
        rw [Declaration.withoutDocs] at same ⊢
        rw [visitPackageMember_ofType, visitPackageMember_ofType, same]
      | ofExecutable e => rfl
      | ofVariable v => rfl
      | stray f => rfl
    rw [Declaration.withoutDocsIn, visitPackageMembers, visitPackageMembers, first, ih]

theorem Scope.visit_withoutDocs (s : Scope) : s.withoutDocs.visit true = s.visit false := by
  cases s with
  | module m => rfl
  | package p =>
    change p.withoutDocs.visit true = p.visit false
    rw [Package.visit, Package.visit, Package.withoutDocs, visitPackageMembers_withoutDocs]

theorem Program.scopes_withoutDocs (p : Program) : p.withoutDocs.scopes = p.scopes.map Scope.withoutDocs := by
  simp [Program.scopes, Program.withoutDocs, Scope.withoutDocs, Function.comp_def]

theorem walkScopes_withoutDocs (ss : List Scope) (i : Index) :
    walkScopes true i (ss.map Scope.withoutDocs) = walkScopes false i ss := by
  induction ss generalizing i with
  | nil => rfl
  | cons s ss ih =>
    have enter : i.enter s.withoutDocs = i.enter s := by cases s <;> rfl
    rw [List.map_cons, walkScopes, walkScopes, Scope.visit_withoutDocs, enter]
    simp only [ih]

/-- A walk that leaves documentation out and one that finds none are the same. -/
theorem Program.walk_withoutDocs (p : Program) : p.withoutDocs.walk true = p.walk false := by
  rw [Program.walk, Program.walk, Program.scopes_withoutDocs, walkScopes_withoutDocs]

/-! ## Facts without documentation -/

/-- The names of the facts that end with documentation. -/
def documentedNames : List String :=
  ["class", "interface", "enum", "annotation_type", "record", "method", "constructor", "field"]

namespace Term

/-- The fact with the empty atom for its own documentation. -/
def withoutOwnDoc : Term → Term
  | .compound name parts =>
    if name ∈ documentedNames then .compound name (parts.dropLast ++ [.atom ""]) else .compound name parts
  | t => t

/-- The list with no documentation in its elements. -/
def withoutDocsInList : Term → Term
  | .list ts => .list (ts.map withoutOwnDoc)
  | t => t

/-- The fact with the empty atom for its own documentation and for that of the members that it lists. -/
def withoutDocs : Term → Term
  | .compound name parts =>
    match memberPlaces.lookup name with
    | some place => (Term.compound name (parts.modify place withoutDocsInList)).withoutOwnDoc
    | none => (Term.compound name parts).withoutOwnDoc
  | t => t

end Term

def Event.withoutDocs : Event → Event
  | .warning w => .warning w
  | .write key fact => .write key fact.withoutDocs

namespace Walk

variable {α β : Type}

/-- The walk with no documentation in what it writes, and the result as changed by a function. -/
def withoutDocs (g : α → α) (w : Walk α) : Walk α := ⟨w.events.map Event.withoutDocs, w.tally, w.result.map g⟩

theorem withoutDocs_bind {x x' : Walk α} {f f' : α → Walk β} {g : α → α} {h : β → β} (first : x' = x.withoutDocs g)
    (next : ∀ a, f' (g a) = (f a).withoutDocs h) : x' >>= f' = (x >>= f).withoutDocs h := by
  subst first
  cases result : x.result with
  | ok a =>
    have changed : (x.withoutDocs g).result = .ok (g a) := by simp [withoutDocs, result, Except.map]
    rw [bind_of_ok result, bind_of_ok changed, next a]
    simp [withoutDocs]
  | error e =>
    have kept : (x.withoutDocs g).result = .error e := by simp [withoutDocs, result, Except.map]
    rw [bind_of_error result, bind_of_error kept]
    simp [withoutDocs, Except.map]

/-- A walk that writes nothing has no documentation to lose. -/
theorem withoutDocs_of_silent {w : Walk α} (silent : w.writes = []) : w = w.withoutDocs id := by
  have same : ∀ event ∈ w.events, event.withoutDocs = event := by
    intro event member
    cases event with
    | warning _ => rfl
    | write key fact =>
      have none := List.filterMap_eq_nil_iff.1 silent _ member
      cases none
  have events : w.events.map Event.withoutDocs = w.events := by
    rw [List.map_congr_left same, List.map_id']
  have result : w.result.map id = w.result := by cases w.result <;> rfl
  rw [withoutDocs, events, result]

theorem withoutDocs_noted (n : Noted α) : ofNoted n = (ofNoted n).withoutDocs id :=
  withoutDocs_of_silent (writes_ofNoted n)

theorem withoutDocs_result (r : Except EncodeFault α) : ofResult r = (ofResult r).withoutDocs id :=
  withoutDocs_of_silent rfl

/-- A text is left out, and nothing else happens. -/
theorem withoutDocs_doc {doc : Document} (text : doc.isTextOrNull = true) :
    ofResult (encodeDoc false doc) = (ofResult (encodeDoc true doc)).withoutDocs fun _ => .atom "" := by
  obtain ⟨t, ok⟩ := isOk_iff.1 (isOk_encodeDoc text true)
  have known : encodeDoc true doc = .ok t := ok
  rw [known, encodeDoc_unwanted]
  rfl

theorem writes_withoutDocs (g : α → α) (w : Walk α) :
    (w.withoutDocs g).writes = w.writes.map fun call => (call.1, call.2.withoutDocs) := by
  rw [writes, writes, withoutDocs, List.filterMap_map, List.map_filterMap]
  congr 1
  funext event
  cases event <;> rfl

theorem warnings_withoutDocs (g : α → α) (w : Walk α) : (w.withoutDocs g).warnings = w.warnings := by
  rw [warnings, warnings, withoutDocs, List.filterMap_map]
  congr 1
  funext event
  cases event <;> rfl

end Walk

open Walk (withoutDocs_bind withoutDocs_noted withoutDocs_result withoutDocs_doc)

theorem Executable.visit_docs {e : Executable} (text : e.doc.isTextOrNull = true) :
    e.visit false = (e.visit true).withoutDocs (Option.map Term.withoutOwnDoc) := by
  have doc := withoutDocs_doc text
  rw [Executable.visit, Executable.visit]
  split
  · repeat refine withoutDocs_bind (withoutDocs_noted _) fun _ => ?_
    exact withoutDocs_bind doc fun _ => withoutDocs_bind (g := id) rfl fun _ => rfl
  · split
    · repeat refine withoutDocs_bind (withoutDocs_noted _) fun _ => ?_
      exact withoutDocs_bind doc fun _ => withoutDocs_bind (g := id) rfl fun _ => rfl
    · rfl

theorem Variable.visit_docs {v : Variable} (text : v.doc.isTextOrNull = true) :
    v.visit false = (v.visit true).withoutDocs (Option.map Term.withoutOwnDoc) := by
  have doc := withoutDocs_doc text
  rw [Variable.visit, Variable.visit]
  split
  · rfl
  · split
    · repeat refine withoutDocs_bind (withoutDocs_noted _) fun _ => ?_
      exact withoutDocs_bind doc fun _ => withoutDocs_bind (g := id) rfl fun _ => rfl
    · rfl

theorem TypeHead.fact_docs {t : TypeHead} (text : t.doc.isTextOrNull = true) (package : String) (members : List Term)
    (shape : TypeShape) :
    t.fact false package (members.map Term.withoutOwnDoc) shape =
      (t.fact true package members shape).withoutDocs Term.withoutDocs := by
  have doc := withoutDocs_doc text
  cases shape
  all_goals
    repeat refine withoutDocs_bind (withoutDocs_noted _) fun _ => ?_
    exact withoutDocs_bind doc fun _ => rfl

theorem TypeHead.visitWith_docs {t : TypeHead} (text : t.doc.isTextOrNull = true) (package : String)
    {plain full : Walk (List Term)} (members : plain = full.withoutDocs (List.map Term.withoutOwnDoc)) :
    t.visitWith false package plain = (t.visitWith true package full).withoutDocs (Option.map Term.withoutDocs) := by
  rw [TypeHead.visitWith, TypeHead.visitWith]
  split
  · rfl
  · next shape _ =>
    refine withoutDocs_bind members fun ms => withoutDocs_bind (t.fact_docs text package ms shape) fun f => ?_
    exact withoutDocs_bind (g := id) rfl fun _ => withoutDocs_bind (g := id) rfl fun _ => rfl

mutual

theorem visitMember_docs (package : String) : ∀ d : Declaration, d.hasTextDocs = true →
    visitMember false package d = (visitMember true package d).withoutDocs (Option.map Term.withoutOwnDoc)
  | .ofType t ds, text => by
    obtain ⟨own, inner⟩ := Declaration.hasTextDocs_ofType.1 text
    rw [visitMember, visitMember]
    refine withoutDocs_bind (t.visitWith_docs own package (visitMembers_docs package ds inner)) fun f => ?_
    cases f <;> rfl
  | .ofExecutable e, text => by
    rw [visitMember, visitMember]
    exact Executable.visit_docs (Declaration.hasTextDocs_ofExecutable.1 text)
  | .ofVariable v, text => by
    rw [visitMember, visitMember]
    exact Variable.visit_docs (Declaration.hasTextDocs_ofVariable.1 text)
  | .stray f, _ => by
    rw [visitMember, visitMember]
    exact withoutDocs_bind (withoutDocs_result _) fun _ => rfl

theorem visitMembers_docs (package : String) : ∀ ds : List Declaration,
    (Declaration.docsIn ds).all Document.isTextOrNull = true →
    visitMembers false package ds = (visitMembers true package ds).withoutDocs (List.map Term.withoutOwnDoc)
  | [], _ => by
    rw [visitMembers, visitMembers]
    rfl
  | d :: ds, text => by
    obtain ⟨first, others⟩ := Declaration.docsIn_all text
    rw [visitMembers, visitMembers]
    refine withoutDocs_bind (visitMember_docs package d first) fun m => ?_
    refine withoutDocs_bind (visitMembers_docs package ds others) fun ms => ?_
    cases m <;> rfl

end

/-- Packages keep only markers of types, which have no documentation. -/
theorem visitPackageMember_docs (package : String) {d : Declaration} (text : d.hasTextDocs = true) :
    visitPackageMember false package d = (visitPackageMember true package d).withoutDocs id := by
  cases d with
  | ofType t ds =>
    obtain ⟨own, inner⟩ := Declaration.hasTextDocs_ofType.1 text
    rw [visitPackageMember, visitPackageMember, visitType, visitType]
    refine withoutDocs_bind (t.visitWith_docs own package (visitMembers_docs package ds inner)) fun f => ?_
    cases f <;> rfl
  | ofExecutable e => rfl
  | ofVariable v => rfl
  | stray f => exact withoutDocs_bind (withoutDocs_result _) fun _ => rfl

theorem visitPackageMembers_docs (package : String) (ds : List Declaration)
    (text : (Declaration.docsIn ds).all Document.isTextOrNull = true) :
    visitPackageMembers false package ds = (visitPackageMembers true package ds).withoutDocs id := by
  induction ds with
  | nil => rfl
  | cons d ds ih =>
    obtain ⟨first, others⟩ := Declaration.docsIn_all text
    rw [visitPackageMembers, visitPackageMembers]
    exact withoutDocs_bind (visitPackageMember_docs package first) fun m => withoutDocs_bind (ih others) fun ms => rfl

theorem Scope.visit_docs {s : Scope} (text : s.docs.all Document.isTextOrNull = true) :
    s.visit false = (s.visit true).withoutDocs id := by
  cases s with
  | module m =>
    change m.visit = m.visit.withoutDocs id
    rw [Module.visit]
    have silent := Walk.withoutDocs_of_silent (Directive.writes_visitList m.name m.directives)
    refine withoutDocs_bind silent fun ds => ?_
    exact withoutDocs_bind (g := id) rfl fun _ => withoutDocs_bind (g := id) rfl fun _ => rfl
  | package p =>
    change p.visit false = (p.visit true).withoutDocs id
    rw [Package.visit, Package.visit]
    refine withoutDocs_bind (visitPackageMembers_docs p.name p.members text) fun ms => ?_
    exact withoutDocs_bind (g := id) rfl fun _ => withoutDocs_bind (g := id) rfl fun _ => rfl

theorem walkScopes_docs (ss : List Scope) (text : (ss.flatMap Scope.docs).all Document.isTextOrNull = true)
    (i : Index) : walkScopes false i ss = (walkScopes true i ss).withoutDocs id := by
  induction ss generalizing i with
  | nil => rfl
  | cons s ss ih =>
    rw [List.flatMap_cons, List.all_append, Bool.and_eq_true] at text
    rw [walkScopes, walkScopes]
    exact withoutDocs_bind (Scope.visit_docs text.1) fun _ => ih text.2 _

/-! ## Agreement -/

/-- **The modes agree.** A walk without documentation is the walk with documentation over the program without any. Where
all documentation is absent or a text, it is also the walk with documentation over the program itself, but for the atoms
of documentation in what is written: keys, warnings, counts and result are the same, in the same order. -/
theorem Program.walk_modes_agree (p : Program) :
    p.walk false = p.withoutDocs.walk true ∧
      (p.hasTextDocs = true →
        (p.walk false).events = (p.walk true).events.map Event.withoutDocs ∧
          (p.walk false).writes = (p.walk true).writes.map (fun call => (call.1, call.2.withoutDocs)) ∧
          (p.walk false).warnings = (p.walk true).warnings ∧
          (p.walk false).tally = (p.walk true).tally ∧
          (p.walk false).result = (p.walk true).result) := by
  refine ⟨p.walk_withoutDocs.symm, fun text => ?_⟩
  have agree : p.walk false = (p.walk true).withoutDocs id := walkScopes_docs p.scopes text {}
  have result : (p.walk true).result.map id = (p.walk true).result := by cases (p.walk true).result <;> rfl
  rw [agree]
  exact ⟨rfl, Walk.writes_withoutDocs id _, Walk.warnings_withoutDocs id _, rfl, result⟩

/-- Documentation of a class, of its field and of an annotation type in it, beside an initializer, which is left out. -/
def Program.documentedSample : Program :=
  { packages := [{
      name := "p"
      members := [
        .ofType { kind := "CLASS", name := "A", doc := .scalar (.text "Outer.") }
          [.ofType { kind := "ANNOTATION_TYPE", name := "N", doc := .scalar (.text "Inner.") } [],
            .ofExecutable { kind := "STATIC_INIT", name := "", doc := .scalar (.text "Lost.") },
            .ofVariable
              { kind := "FIELD", name := "x", type := .primitive "int", doc := .scalar (.text "Field.") }]] }] }

theorem Program.walk_modes_agree_documented :
    Program.documentedSample.hasTextDocs = true ∧
      (Program.documentedSample.walk true).writes.head? = some
        (.type "p" "N", .compound "annotation_type" [.atom "N", .atom "p", .list [], .list [], .atom "Inner."]) ∧
      (Program.documentedSample.walk false).writes.head? = some
        (.type "p" "N", .compound "annotation_type" [.atom "N", .atom "p", .list [], .list [], .atom ""]) ∧
      (Program.documentedSample.walk false).writes.map Prod.fst = [.type "p" "N", .type "p" "A", .package "p"] ∧
      (Program.documentedSample.walk false).warnings = [.executableKind "STATIC_INIT" ""] := by
  have text : Program.documentedSample.hasTextDocs = true := by decide
  obtain ⟨-, writes, warnings, -⟩ := (Program.walk_modes_agree Program.documentedSample).2 text
  refine ⟨text, rfl, ?_, ?_, ?_⟩
  · rw [writes]
    rfl
  · rw [writes]
    rfl
  · rw [warnings]
    rfl

end ProgramFacts
