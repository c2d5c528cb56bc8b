import ProgramFacts.Proofs.Reading.Models

/-!
# Canonical documents

Every part of a model has a canonical document: a mapping with all of its fields, types and annotations included. What
is read from the canonical document of a part that meets demands is that part again. This is proved part by part, with
one lemma for each sort of field.
-/

namespace ProgramFacts

/-! ## Fields -/

/-- Entries under names. -/
def Entries.ofFields (fs : List (String × Document)) : Entries := fs.map fun f => (.text f.1, f.2)

namespace Document

/-- A mapping with the given fields. -/
def fields (fs : List (String × Document)) : Document := .mapping (Entries.ofFields fs)

/-- A list with a document for each of several parts. -/
def ofEach {α : Type} (document : α → Document) (as : List α) : Document := .list (as.map document)

end Document

theorem ok_then {α β : Type} {x : Except Fault α} {k : α → Except Fault β} {a : α} {b : β} (first : x = .ok a)
    (later : k a = .ok b) : x >>= k = .ok b := by
  rw [first]
  exact later

/-- The parts of a list are read one by one. -/
theorem readItems_map {α : Type} {read : Reader α} {document : α → Document} {as : List α}
    (back : ∀ a ∈ as, ∀ place, read place (document a) = .ok a) (place : Place) (i : Nat) :
    readItems read place i (as.map document) = .ok as := by
  induction as generalizing i with
  | nil => rfl
  | cons a as ih =>
    rw [List.map_cons, readItems]
    refine ok_then (back a List.mem_cons_self _) ?_
    exact ok_then (ih (fun b there => back b (List.mem_cons_of_mem a there)) (i + 1)) rfl

namespace Entries

variable {α : Type} {fs : List (String × Document)} {name : String} {d : Document}

theorem get?_ofFields (fs : List (String × Document)) (name : String) : (ofFields fs).get? name = fs.lookup name := by
  induction fs with
  | nil => rfl
  | cons f fs ih =>
    obtain ⟨key, d⟩ := f
    show (if Scalar.text key = .text name then some d else (ofFields fs).get? name) = _
    rw [ih, List.lookup_cons]
    by_cases same : key = name
    · simp [same]
    · have other : (name == key) = false := by simpa using Ne.symm same
      simp [same, other]

theorem getNull_ofFields (found : fs.lookup name = some d) : (ofFields fs).getNull name = d := by
  rw [getNull, get?_ofFields, found, Option.getD_some]

theorem readText_ofFields {s : String} (found : fs.lookup name = some (.text s)) (place : Place) :
    (ofFields fs).readText place name = .ok s := by
  rw [readText, getNull_ofFields found]
  rfl

theorem readNode_ofFields (found : fs.lookup name = some d) (place : Place) :
    (ofFields fs).readNode place name = .ok d := by
  rw [readNode, get?_ofFields, found]

theorem readEach_ofFields {read : Reader α} {document : α → Document} {as : List α}
    (found : fs.lookup name = some (.ofEach document as)) (back : ∀ a ∈ as, ∀ place, read place (document a) = .ok a)
    (place : Place) : (ofFields fs).readEach read place name = .ok as := by
  rw [readEach, getNull_ofFields found]
  exact readItems_map back _ 0

theorem readTexts_ofFields {ss : List String} (found : fs.lookup name = some (.ofEach .text ss)) (place : Place) :
    (ofFields fs).readTexts place name = .ok ss :=
  readEach_ofFields found (fun _ _ _ => rfl) place

end Entries

/-! ## Types -/

mutual

/-- The canonical document of a type: a mapping, whatever the type. -/
def TypeExpr.document : TypeExpr → Document
  | .declared n ts => .fields [("declared", .text n), ("arguments", .list (TypeExpr.documents ts))]
  | .primitive k => .fields [("primitive", .text k)]
  | .array t => .fields [("array", t.document)]
  | .typeVariable n => .fields [("type_variable", .text n)]
  | .wildcard none none => .fields [("wildcard", .null)]
  | .wildcard (some t) _ => .fields [("wildcard", .text "extends"), ("bound", t.document)]
  | .wildcard none (some t) => .fields [("wildcard", .text "super"), ("bound", t.document)]
  | .noType k => .fields [("no_type", .text k)]
  | .other k d => .fields [("other", .text k), ("description", .text d)]
  | .stray _ => .fields []

def TypeExpr.documents : List TypeExpr → List Document
  | [] => []
  | t :: ts => t.document :: TypeExpr.documents ts

end

mutual

theorem readType_document : ∀ {t : TypeExpr}, t.isLoadable = true → ∀ place, readType place t.document = .ok t
  | .declared n ts, loadable, place => by
    rw [TypeExpr.isLoadable] at loadable
    rw [readType, TypeExpr.document, Document.fields, readTypeIn, readTypesUnder_eq]
    refine ok_then (a := n) rfl ?_
    refine ok_then (a := ts) ?_ rfl
    rw [Entries.readEach, Entries.getNull_ofFields rfl]
    exact readTypes_documents loadable _ 0
  | .primitive k, _, place => rfl
  | .array t, loadable, place => by
    have component : t.isLoadable = true := loadable
    rw [readType, TypeExpr.document, Document.fields, readTypeIn, readTypeUnder_eq]
    exact ok_then (readType_document component _) rfl
  | .typeVariable n, _, place => rfl
  | .wildcard none none, _, place => rfl
  | .wildcard (some t) none, loadable, place => by
    have bound : t.isLoadable = true := loadable
    rw [readType, TypeExpr.document, Document.fields, readTypeIn, readTypeUnder_eq]
    exact ok_then (readType_document bound _) rfl
  | .wildcard none (some t), loadable, place => by
    have bound : t.isLoadable = true := loadable
    rw [readType, TypeExpr.document, Document.fields, readTypeIn, readTypeUnder_eq]
    exact ok_then (readType_document bound _) rfl
  | .noType k, _, place => rfl
  | .other k d, _, place => rfl

theorem readTypes_documents : ∀ {ts : List TypeExpr}, TypeExpr.areLoadable ts = true → ∀ place i,
    readItems readType place i (TypeExpr.documents ts) = .ok ts
  | [], _, place, i => rfl
  | t :: ts, loadable, place, i => by
    rw [TypeExpr.areLoadable, Bool.and_eq_true] at loadable
    rw [TypeExpr.documents, readItems]
    refine ok_then (readType_document loadable.1 _) ?_
    exact ok_then (readTypes_documents loadable.2 _ _) rfl

end

theorem readTypeEach_ofFields {fs : List (String × Document)} {name : String} {ts : List TypeExpr}
    (found : fs.lookup name = some (.ofEach TypeExpr.document ts)) (loadable : ts.all TypeExpr.isLoadable = true)
    (place : Place) : (Entries.ofFields fs).readEach readType place name = .ok ts := by
  apply Entries.readEach_ofFields found
  intro t there
  exact readType_document (List.all_eq_true.1 loadable t there)

/-- The canonical document of a type is a mapping, hence not null. -/
theorem TypeExpr.document_eq_mapping (t : TypeExpr) : ∃ es, t.document = .mapping es := by
  fun_cases TypeExpr.document t <;> exact ⟨_, rfl⟩

/-! ## Annotations and their values -/

/-- The canonical document of an annotation, from its name and the documents of its arguments. -/
def annotationDocument (name : String) (arguments : List (String × Document)) : Document :=
  .fields [("name", .text name), ("arguments", .fields arguments)]

mutual

/-- The canonical document of a value. -/
def Value.document : Value → Document
  | .bool b => .scalar (.bool b)
  | .integer n => .scalar (.integer n)
  | .number x => .scalar (.number x)
  | .text s => .text s
  | .char s => .fields [("char", .text s)]
  | .enumConstant e n => .fields [("enum", .text e), ("constant", .text n)]
  | .nested n vs => .fields [("annotation", annotationDocument n (Value.argumentDocuments vs))]
  | .list vs => .list (Value.documents vs)
  | .type t => .fields [("type", t.document)]
  | .other k d => .fields [("other", .text k), ("description", .text d)]
  | .stray _ => .null

def Value.documents : List Value → List Document
  | [] => []
  | v :: vs => v.document :: Value.documents vs

def Value.argumentDocuments : List (String × Value) → List (String × Document)
  | [] => []
  | (n, v) :: vs => (n, v.document) :: Value.argumentDocuments vs

end

def Annotation.document (a : Annotation) : Document := annotationDocument a.name (Value.argumentDocuments a.arguments)

section Values

variable {q : Demands}

/-- An annotation is read back from its canonical document if its arguments are. -/
theorem readNote_annotationDocument {vs : List (String × Value)} (name : String) (place : Place)
    (back : ∀ place, readArguments place (Entries.ofFields (Value.argumentDocuments vs)) = .ok vs) :
    readNote place (annotationDocument name (Value.argumentDocuments vs)) = .ok { name, arguments := vs } := by
  have arguments : readArgumentsUnder place "arguments" (Entries.ofFields [("name", .text name),
      ("arguments", .fields (Value.argumentDocuments vs))]) = .ok (.ok vs) := by
    rw [readArgumentsUnder_eq, Entries.get?_ofFields]
    show Except.ok (readArguments _ _) = _
    rw [back]
  rw [annotationDocument, Document.fields, readNote, arguments]
  exact ok_then (Entries.readText_ofFields rfl place) rfl

mutual

theorem readValue_document : ∀ {v : Value}, v.meets q = true → ∀ place, readValue place v.document = .ok v
  | .bool _, _, _ => rfl
  | .integer _, _, _ => rfl
  | .number _, _, _ => rfl
  | .text _, _, _ => rfl
  | .char _, _, _ => rfl
  | .enumConstant _ _, _, _ => rfl
  | .nested n vs, loadable, place => by
    rw [Value.meets, Bool.and_eq_true] at loadable
    rw [readValue, Value.document, Document.fields, readValueIn, readNoteUnder_eq]
    exact ok_then (readNote_annotationDocument n _ fun place => readArguments_documents loadable.2 place) rfl
  | .list vs, loadable, place => by
    rw [Value.meets] at loadable
    rw [readValue, Value.document, readValueIn, readValues_eq]
    exact ok_then (readValues_documents loadable place 0) rfl
  | .type t, loadable, place => by
    rw [Value.meets] at loadable
    rw [readValue, Value.document, Document.fields, readValueIn]
    exact ok_then (readType_document loadable _) rfl
  | .other _ _, _, _ => rfl

theorem readValues_documents : ∀ {vs : List Value}, Value.allMeet q vs = true → ∀ place i,
    readItems readValue place i (Value.documents vs) = .ok vs
  | [], _, _, _ => rfl
  | v :: vs, loadable, place, i => by
    rw [Value.allMeet, Bool.and_eq_true] at loadable
    rw [Value.documents, readItems]
    refine ok_then (readValue_document loadable.1 _) ?_
    exact ok_then (readValues_documents loadable.2 _ _) rfl

theorem readArguments_documents : ∀ {vs : List (String × Value)}, Value.argumentsMeet q vs = true → ∀ place,
    readArguments place (Entries.ofFields (Value.argumentDocuments vs)) = .ok vs
  | [], _, _ => rfl
  | (n, v) :: vs, loadable, place => by
    rw [Value.argumentsMeet, Bool.and_eq_true] at loadable
    rw [Value.argumentDocuments, Entries.ofFields, List.map_cons, readArguments]
    refine ok_then (readValue_document loadable.1 _) ?_
    exact ok_then (readArguments_documents loadable.2 _) rfl

end

theorem readNote_document {a : Annotation} (loadable : a.meets q = true) (place : Place) :
    readNote place a.document = .ok a := by
  unfold Annotation.meets at loadable
  rw [Bool.and_eq_true] at loadable
  exact readNote_annotationDocument a.name place fun place => readArguments_documents loadable.2 place

theorem readNotes_ofFields {fs : List (String × Document)} {as : List Annotation}
    (found : fs.lookup "annotations" = some (.ofEach Annotation.document as))
    (loadable : as.all (·.meets q) = true) (place : Place) :
    (Entries.ofFields fs).readNotes place = .ok as := by
  apply Entries.readEach_ofFields found
  intro a there
  exact readNote_document (List.all_eq_true.1 loadable a there)

end Values

/-! ## Declarations -/

def TypeParameter.document (p : TypeParameter) : Document :=
  .fields [("name", .text p.name), ("bounds", .ofEach TypeExpr.document p.bounds),
    ("annotations", .ofEach Annotation.document p.annotations)]

def Parameter.document (p : Parameter) : Document :=
  .fields [("name", .text p.name), ("type", p.type.document), ("modifiers", .ofEach .text p.modifiers),
    ("annotations", .ofEach Annotation.document p.annotations)]

def RecordComponent.document (c : RecordComponent) : Document :=
  .fields [("name", .text c.name), ("type", c.type.document),
    ("annotations", .ofEach Annotation.document c.annotations)]

def Variable.document (v : Variable) : Document :=
  .fields [("kind", .text v.kind), ("name", .text v.name), ("type", v.type.document),
    ("modifiers", .ofEach .text v.modifiers), ("annotations", .ofEach Annotation.document v.annotations),
    ("doc", v.doc)]

def Executable.document (e : Executable) : Document :=
  .fields [("kind", .text e.kind), ("name", .text e.name), ("modifiers", .ofEach .text e.modifiers),
    ("type_parameters", .ofEach TypeParameter.document e.typeParameters), ("returns", e.returnType.document),
    ("parameters", .ofEach Parameter.document e.parameters), ("throws", .ofEach TypeExpr.document e.thrownTypes),
    ("annotations", .ofEach Annotation.document e.annotations), ("doc", e.doc)]

/-- The canonical document of a superclass; none is null. -/
def superclassDocument : Option TypeExpr → Document
  | none => .null
  | some t => t.document

/-- The canonical document of a type, around the documents of its members. -/
def TypeHead.document (t : TypeHead) (members : List Document) : Document :=
  .fields [("kind", .text t.kind), ("name", .text t.name), ("modifiers", .ofEach .text t.modifiers),
    ("type_parameters", .ofEach TypeParameter.document t.typeParameters),
    ("extends", superclassDocument t.superclass), ("implements", .ofEach TypeExpr.document t.interfaces),
    ("permits", .ofEach .text t.permitted), ("components", .ofEach RecordComponent.document t.components),
    ("members", .list members), ("annotations", .ofEach Annotation.document t.annotations), ("doc", t.doc)]

mutual

def Declaration.document : Declaration → Document
  | .ofType t ds => t.document (Declaration.documents ds)
  | .ofExecutable e => e.document
  | .ofVariable v => v.document
  | .stray _ => .null

def Declaration.documents : List Declaration → List Document
  | [] => []
  | d :: ds => d.document :: Declaration.documents ds

end

theorem Declaration.documents_eq_map (ds : List Declaration) : documents ds = ds.map document := by
  induction ds with
  | nil => rfl
  | cons d ds ih => rw [documents, ih, List.map_cons]

section Declarations

variable {q : Demands}

theorem upper_executableKind {kind : String} (known : kind ∈ executableKinds) : Text.upper kind = kind := by
  have all : ∀ k ∈ executableKinds, Text.upper k = k := by decide +kernel
  exact all kind known

theorem upper_variableKind {kind : String} (known : kind ∈ variableKinds) : Text.upper kind = kind := by
  have all : ∀ k ∈ variableKinds, Text.upper k = k := by decide +kernel
  exact all kind known

theorem not_executable_of_variable {kind : String} (known : kind ∈ variableKinds) : kind ∉ executableKinds := by
  have all : ∀ k ∈ variableKinds, k ∉ executableKinds := by decide
  exact all kind known

theorem readTypeParameter_document {p : TypeParameter} (loadable : p.meets q = true) (place : Place) :
    readTypeParameter place p.document = .ok p := by
  rw [TypeParameter.meets, Bool.and_eq_true] at loadable
  obtain ⟨bounds, annotations⟩ := loadable
  refine ok_then rfl ?_
  refine ok_then (Entries.readText_ofFields rfl place) ?_
  refine ok_then (readTypeEach_ofFields rfl bounds place) ?_
  exact ok_then (readNotes_ofFields rfl annotations place) rfl

theorem readParameter_document {p : Parameter} (loadable : p.meets q = true) (place : Place) :
    readParameter place p.document = .ok p := by
  rw [Parameter.meets, Bool.and_eq_true] at loadable
  obtain ⟨type, annotations⟩ := loadable
  refine ok_then rfl ?_
  refine ok_then (Entries.readNode_ofFields rfl place) ?_
  refine ok_then (Entries.readText_ofFields rfl place) ?_
  refine ok_then (readType_document type _) ?_
  refine ok_then (Entries.readTexts_ofFields rfl place) ?_
  exact ok_then (readNotes_ofFields rfl annotations place) rfl

theorem readComponent_document {c : RecordComponent} (loadable : c.meets q = true) (place : Place) :
    readComponent place c.document = .ok c := by
  rw [RecordComponent.meets, Bool.and_eq_true] at loadable
  obtain ⟨type, annotations⟩ := loadable
  refine ok_then rfl ?_
  refine ok_then (Entries.readNode_ofFields rfl place) ?_
  refine ok_then (Entries.readText_ofFields rfl place) ?_
  refine ok_then (readType_document type _) ?_
  exact ok_then (readNotes_ofFields rfl annotations place) rfl

theorem readTypeOrNone_ofFields {fs : List (String × Document)} {name : String} {t : Option TypeExpr}
    (found : fs.lookup name = some (superclassDocument t)) (loadable : t.all TypeExpr.isLoadable = true)
    (place : Place) : (Entries.ofFields fs).readTypeOrNone place name = .ok t := by
  rw [Entries.readTypeOrNone, Entries.getNull_ofFields found]
  cases t with
  | none => rfl
  | some t =>
    obtain ⟨es, mapping⟩ := t.document_eq_mapping
    have back := readType_document loadable (place.field name)
    rw [mapping] at back
    rw [superclassDocument, mapping]
    show some <$> readType (place.field name) (.mapping es) = _
    rw [back]
    rfl

theorem readVariable_document {v : Variable} (loadable : v.meets q = true) (place : Place) :
    readDeclaration place v.document = .ok (.ofVariable v) := by
  simp only [Variable.meets, Bool.and_eq_true, decide_eq_true_eq] at loadable
  obtain ⟨⟨⟨known, type⟩, annotations⟩, -⟩ := loadable
  have upper : Text.upper v.kind = v.kind := upper_variableKind known
  have notExecutable : v.kind ∉ executableKinds := not_executable_of_variable known
  rw [Variable.document, Document.fields, readDeclaration]
  refine ok_then (Entries.readText_ofFields rfl place) ?_
  simp only [upper, notExecutable, known, if_true, if_false]
  refine ok_then (a := v) ?_ rfl
  unfold readVariable
  refine ok_then (Entries.readNode_ofFields rfl place) ?_
  refine ok_then (Entries.readText_ofFields rfl place) ?_
  refine ok_then (readType_document type _) ?_
  refine ok_then (Entries.readTexts_ofFields rfl place) ?_
  exact ok_then (readNotes_ofFields rfl annotations place) rfl

theorem readExecutable_document {e : Executable} (loadable : e.meets q = true) (place : Place) :
    readDeclaration place e.document = .ok (.ofExecutable e) := by
  simp only [Executable.meets, Bool.and_eq_true, decide_eq_true_eq] at loadable
  obtain ⟨⟨⟨⟨⟨⟨known, typeParameters⟩, returnType⟩, parameters⟩, thrownTypes⟩, annotations⟩, -⟩ := loadable
  have upper : Text.upper e.kind = e.kind := upper_executableKind known
  have returns : (some e.returnType).all TypeExpr.isLoadable = true := returnType
  rw [Executable.document, Document.fields, readDeclaration]
  refine ok_then (Entries.readText_ofFields rfl place) ?_
  simp only [upper, known, if_true]
  refine ok_then (a := e) ?_ rfl
  rw [readExecutable_eq]
  refine ok_then (Entries.readText_ofFields rfl place) ?_
  refine ok_then (Entries.readTexts_ofFields rfl place) ?_
  refine ok_then (Entries.readEach_ofFields rfl (fun p there => readTypeParameter_document
    (List.all_eq_true.1 typeParameters p there)) place) ?_
  refine ok_then (readTypeOrNone_ofFields rfl returns place) ?_
  refine ok_then (Entries.readEach_ofFields rfl (fun p there => readParameter_document
    (List.all_eq_true.1 parameters p there)) place) ?_
  refine ok_then (readTypeEach_ofFields rfl thrownTypes place) ?_
  exact ok_then (readNotes_ofFields rfl annotations place) rfl

/-- A type is read back from its canonical document if its members are. -/
theorem readTypeHead_document {t : TypeHead} {ds : List Declaration} (loadable : t.meets q = true)
    (back : ∀ place, readItems readDeclaration place 0 (Declaration.documents ds) = .ok ds) (place : Place) :
    readDeclaration place (t.document (Declaration.documents ds)) = .ok (.ofType t ds) := by
  simp only [TypeHead.meets, isTypeKind, Bool.and_eq_true, decide_eq_true_eq] at loadable
  obtain ⟨⟨⟨⟨⟨⟨⟨⟨upper, notExecutable⟩, notVariable⟩, typeParameters⟩, superclass⟩, interfaces⟩, components⟩,
    annotations⟩, -⟩ := loadable
  rw [TypeHead.document, Document.fields, readDeclaration, readMembersUnder_eq]
  refine ok_then (Entries.readText_ofFields rfl place) ?_
  simp only [upper, notExecutable, notVariable, if_false]
  rw [readTypeHead_eq]
  refine ok_then (Entries.readText_ofFields rfl place) ?_
  refine ok_then (Entries.readTexts_ofFields rfl place) ?_
  refine ok_then (Entries.readEach_ofFields rfl (fun p there => readTypeParameter_document
    (List.all_eq_true.1 typeParameters p there)) place) ?_
  refine ok_then (readTypeOrNone_ofFields rfl superclass place) ?_
  refine ok_then (readTypeEach_ofFields rfl interfaces place) ?_
  refine ok_then (Entries.readTexts_ofFields rfl place) ?_
  refine ok_then (Entries.readEach_ofFields rfl (fun c there => readComponent_document
    (List.all_eq_true.1 components c there)) place) ?_
  refine ok_then (a := ds) ?_ ?_
  · rw [Entries.readEach, Entries.getNull_ofFields rfl]
    exact back _
  · exact ok_then (readNotes_ofFields rfl annotations place) rfl

mutual

theorem readDeclaration_document : ∀ {d : Declaration}, d.meets q = true → ∀ place,
    readDeclaration place d.document = .ok d
  | .ofType t ds, loadable, place => by
    rw [Declaration.meets, Bool.and_eq_true] at loadable
    exact readTypeHead_document loadable.1 (fun place => readDeclarations_documents loadable.2 place 0) place
  | .ofExecutable e, loadable, place => readExecutable_document loadable place
  | .ofVariable v, loadable, place => readVariable_document loadable place

theorem readDeclarations_documents : ∀ {ds : List Declaration}, Declaration.allMeet q ds = true → ∀ place i,
    readItems readDeclaration place i (Declaration.documents ds) = .ok ds
  | [], _, _, _ => rfl
  | d :: ds, loadable, place, i => by
    rw [Declaration.allMeet, Bool.and_eq_true] at loadable
    rw [Declaration.documents, readItems]
    refine ok_then (readDeclaration_document loadable.1 _) ?_
    exact ok_then (readDeclarations_documents loadable.2 _ _) rfl

end

end Declarations

/-! ## Programs -/

namespace Directive

/-- The canonical document of a directive; a service that is used is its type. -/
def document : Directive → Document
  | .requires m ms as => .fields [("module", .text m), ("modifiers", .ofEach .text ms),
      ("annotations", .ofEach Annotation.document as)]
  | .exports p ts as => .fields [("package", .text p), ("to", .ofEach .text ts),
      ("annotations", .ofEach Annotation.document as)]
  | .uses t => t.document
  | .provides t ts as => .fields [("service", t.document), ("with", .ofEach TypeExpr.document ts),
      ("annotations", .ofEach Annotation.document as)]
  | .stray _ => .null

/-- The directives of the kind at the given place in the order of the kinds. -/
def ranked (n : Nat) (ds : List Directive) : List Directive := ds.filter fun d => d.rank == n

theorem mem_ranked {n : Nat} {ds : List Directive} {d : Directive} : d ∈ ranked n ds ↔ d ∈ ds ∧ d.rank = n := by
  rw [ranked, List.mem_filter, beq_iff_eq]

/-- In directives that are in order, those of one kind stand in front of those of later kinds. -/
theorem ranked_append_filter {ds : List Directive} (order : ds.Pairwise fun a b => a.rank ≤ b.rank) (n : Nat) :
    ranked n ds ++ ds.filter (fun d => decide (n < d.rank)) = ds.filter fun d => decide (n ≤ d.rank) := by
  induction ds with
  | nil => rfl
  | cons d ds ih =>
    rw [List.pairwise_cons] at order
    have later := ih order.2
    rw [ranked] at later ⊢
    rcases Nat.lt_trichotomy d.rank n with before | here | behind
    · have lt : ¬n < d.rank := by omega
      have le : ¬n ≤ d.rank := by omega
      have ne : d.rank ≠ n := by omega
      simpa [List.filter_cons, lt, le, ne] using later
    · have lt : ¬n < d.rank := by omega
      have le : n ≤ d.rank := by omega
      simpa [List.filter_cons, lt, le, here] using later
    · have none : ds.filter (fun d => d.rank == n) = [] := by
        rw [List.filter_eq_nil_iff]
        intro e there same
        rw [beq_iff_eq] at same
        have := order.1 e there
        omega
      have le : n ≤ d.rank := by omega
      have ne : d.rank ≠ n := by omega
      rw [none, List.nil_append] at later
      simpa [List.filter_cons, none, behind, le, ne] using later

/-- Directives that are in order are those of the four kinds one after the other. -/
theorem ranked_kinds {q : Demands} {ds : List Directive} (order : ds.Pairwise fun a b => a.rank ≤ b.rank)
    (loadable : ds.all (meets q) = true) : ranked 0 ds ++ ranked 1 ds ++ ranked 2 ds ++ ranked 3 ds = ds := by
  have first := ranked_append_filter order 0
  have second := ranked_append_filter order 1
  have third := ranked_append_filter order 2
  have fourth := ranked_append_filter order 3
  have none : ds.filter (fun d => decide (3 < d.rank)) = [] := by
    rw [List.filter_eq_nil_iff]
    intro d there
    have proper := List.all_eq_true.1 loadable d there
    cases d with
    | stray f => cases proper
    | _ => simp [rank]
  have all : ds.filter (fun d => decide (0 ≤ d.rank)) = ds := by simp
  rw [none, List.append_nil] at fourth
  calc ranked 0 ds ++ ranked 1 ds ++ ranked 2 ds ++ ranked 3 ds
      = ranked 0 ds ++ (ranked 1 ds ++ (ranked 2 ds ++ ranked 3 ds)) := by
        rw [List.append_assoc, List.append_assoc]
    _ = ranked 0 ds ++ (ranked 1 ds ++ (ranked 2 ds ++ ds.filter fun d => decide (2 < d.rank))) := by
        rw [fourth]
        rfl
    _ = ranked 0 ds ++ (ranked 1 ds ++ ds.filter fun d => decide (1 < d.rank)) := by
        rw [third]
        rfl
    _ = ranked 0 ds ++ ds.filter fun d => decide (0 < d.rank) := by
        rw [second]
        rfl
    _ = ds := by rw [first, all]

variable {q : Demands} {d : Directive}

theorem readRequires_document (rank : d.rank = 0) (loadable : d.meets q = true) (place : Place) :
    readRequires place d.document = .ok d := by
  cases d with
  | requires m ms as =>
    refine ok_then rfl ?_
    refine ok_then (Entries.readText_ofFields rfl place) ?_
    refine ok_then (Entries.readTexts_ofFields rfl place) ?_
    exact ok_then (readNotes_ofFields rfl loadable place) rfl
  | _ => cases rank

theorem readExports_document (rank : d.rank = 1) (loadable : d.meets q = true) (place : Place) :
    readExports place d.document = .ok d := by
  cases d with
  | exports p ts as =>
    refine ok_then rfl ?_
    refine ok_then (Entries.readText_ofFields rfl place) ?_
    refine ok_then (Entries.readTexts_ofFields rfl place) ?_
    exact ok_then (readNotes_ofFields rfl loadable place) rfl
  | _ => cases rank

theorem readProvides_document (rank : d.rank = 3) (loadable : d.meets q = true) (place : Place) :
    readProvides place d.document = .ok d := by
  cases d with
  | provides t ts as =>
    simp only [meets, Bool.and_eq_true] at loadable
    obtain ⟨⟨service, implementations⟩, annotations⟩ := loadable
    refine ok_then rfl ?_
    refine ok_then (ok_then (Entries.readNode_ofFields rfl place) (readType_document service _)) ?_
    refine ok_then (readTypeEach_ofFields rfl implementations place) ?_
    exact ok_then (readNotes_ofFields rfl annotations place) rfl
  | _ => cases rank

/-- Services that are used are directives and types in turn. -/
theorem eq_map_uses {ds : List Directive} (rank : ∀ d ∈ ds, d.rank = 2) :
    ∃ ts : List TypeExpr, ds = ts.map Directive.uses := by
  induction ds with
  | nil => exact ⟨[], rfl⟩
  | cons d ds ih =>
    obtain ⟨ts, rfl⟩ := ih fun e there => rank e (List.mem_cons_of_mem d there)
    have here := rank d List.mem_cons_self
    cases d with
    | uses t => exact ⟨t :: ts, rfl⟩
    | _ => cases here

end Directive

/-- The fields of a module: its directives stand under one key per kind. -/
def Module.fields (m : Module) : List (String × Document) :=
  [("name", .text m.name), ("modifiers", .ofEach .text m.modifiers),
    ("requires", .ofEach Directive.document (Directive.ranked 0 m.directives)),
    ("exports", .ofEach Directive.document (Directive.ranked 1 m.directives)),
    ("uses", .ofEach Directive.document (Directive.ranked 2 m.directives)),
    ("provides", .ofEach Directive.document (Directive.ranked 3 m.directives)),
    ("packages", .ofEach .text m.packages)]

def Module.document (m : Module) : Document := .fields m.fields

def Package.document (p : Package) : Document :=
  .fields [("name", .text p.name), ("members", .ofEach Declaration.document p.members),
    ("annotations", .ofEach Annotation.document p.annotations), ("doc", p.doc)]

/-- The canonical document of a program. -/
def Program.document (p : Program) : Document :=
  .fields [("modules", .ofEach Module.document p.modules), ("packages", .ofEach Package.document p.packages)]

section Programs

variable {q : Demands}

theorem readModule_document {m : Module} (loadable : m.meets q = true) (place : Place) :
    readModule place m.document = .ok m := by
  rw [Module.meets, Bool.and_eq_true, decide_eq_true_eq] at loadable
  obtain ⟨order, loadable⟩ := loadable
  have kinds := Directive.ranked_kinds order loadable
  -- the directives of one kind are read back if each of them is
  have each : ∀ {read : Reader Directive} {n : Nat},
      (∀ {d : Directive}, d.rank = n → d.meets q = true → ∀ place, read place d.document = .ok d) →
      ∀ d ∈ Directive.ranked n m.directives, ∀ place, read place d.document = .ok d := by
    intro read n back d there
    obtain ⟨inside, rank⟩ := Directive.mem_ranked.1 there
    exact back rank (List.all_eq_true.1 loadable d inside)
  obtain ⟨ts, uses⟩ := Directive.eq_map_uses fun d there => (Directive.mem_ranked.1 there).2
  have types : ts.all TypeExpr.isLoadable = true := by
    rw [List.all_eq_true]
    intro t there
    have used : Directive.uses t ∈ Directive.ranked 2 m.directives := by
      rw [uses]
      exact List.mem_map_of_mem there
    exact List.all_eq_true.1 loadable _ (Directive.mem_ranked.1 used).1
  have found : m.fields.lookup "uses" = some (.ofEach TypeExpr.document ts) := by
    show some (Document.list ((Directive.ranked 2 m.directives).map Directive.document)) = _
    rw [uses, List.map_map]
    rfl
  refine ok_then rfl ?_
  refine ok_then (Entries.readEach_ofFields rfl (each Directive.readRequires_document) place) ?_
  refine ok_then (Entries.readEach_ofFields rfl (each Directive.readExports_document) place) ?_
  refine ok_then (readTypeEach_ofFields found types place) ?_
  refine ok_then (Entries.readEach_ofFields rfl (each Directive.readProvides_document) place) ?_
  refine ok_then (Entries.readText_ofFields rfl place) ?_
  refine ok_then (Entries.readTexts_ofFields rfl place) ?_
  refine ok_then (Entries.readTexts_ofFields rfl place) ?_
  rw [← uses, kinds]
  rfl

theorem readPackage_document {p : Package} (loadable : p.meets q = true) (place : Place) :
    readPackage place p.document = .ok p := by
  simp only [Package.meets, Bool.and_eq_true] at loadable
  obtain ⟨⟨members, annotations⟩, -⟩ := loadable
  refine ok_then rfl ?_
  refine ok_then (Entries.readText_ofFields rfl place) ?_
  refine ok_then (Entries.readEach_ofFields rfl (fun d there => readDeclaration_document
    (List.all_eq_true.1 members d there)) place) ?_
  exact ok_then (readNotes_ofFields rfl annotations place) rfl

/-- What is read from the canonical document of a program is the program. -/
theorem readProgram_document {p : Program} (loadable : p.meets q = true) : readProgram p.document = .ok p := by
  rw [Program.meets, Bool.and_eq_true] at loadable
  obtain ⟨modules, packages⟩ := loadable
  refine ok_then rfl ?_
  refine ok_then (Entries.readEach_ofFields rfl (fun m there => readModule_document
    (List.all_eq_true.1 modules m there)) {}) ?_
  refine ok_then (Entries.readEach_ofFields rfl (fun p there => readPackage_document
    (List.all_eq_true.1 packages p there)) {}) ?_
  rfl

end Programs

end ProgramFacts
