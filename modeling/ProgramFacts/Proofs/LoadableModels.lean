import Mathlib.Data.List.Nodup
import ProgramFacts.Proofs.Reading.Canonical
import ProgramFacts.Proofs.Writable

/-!
# The models that can be read

A model is loadable if it is made of the model's own parts, its declarations have kinds of their own sort, its
directives stand in the order of their kinds, its wildcards have one bound at most, and no argument of an annotation is
named twice. Among documents whose keys are texts, exactly the loadable models can be read: what is read is loadable,
and a loadable model is read from its canonical document, which has texts for keys as well.
-/

namespace ProgramFacts

/-! ## Documents whose keys are texts -/

def Scalar.isText : Scalar → Bool
  | .text _ => true
  | _ => false

namespace Document

/-- Whether a node, if it is a mapping, has texts for keys, none of them twice. -/
def isKeyed : Document → Bool
  | .mapping es => (es.all fun e => e.1.isText) && decide ((es.map Prod.fst).Nodup)
  | _ => true

/-- Whether all mappings in a document have texts for keys, none of them twice. -/
def hasTextKeys (d : Document) : Bool := d.nodes.all isKeyed

theorem hasTextKeys_list (ds : List Document) : (Document.list ds).hasTextKeys = ds.all hasTextKeys := by
  unfold hasTextKeys
  rw [all_nodes_list]
  exact Bool.true_and _

theorem hasTextKeys_mapping (es : Entries) :
    (Document.mapping es).hasTextKeys = ((Document.mapping es).isKeyed && es.all fun e => e.2.hasTextKeys) := by
  unfold hasTextKeys
  rw [all_nodes_mapping]

@[simp] theorem hasTextKeys_text (s : String) : (Document.text s).hasTextKeys = true := rfl

@[simp] theorem hasTextKeys_null : Document.null.hasTextKeys = true := rfl

@[simp] theorem hasTextKeys_ofEach {α : Type} (document : α → Document) (as : List α) :
    (ofEach document as).hasTextKeys = as.all fun a => (document a).hasTextKeys := by
  rw [ofEach, hasTextKeys_list, List.all_map]
  rfl

/-- A mapping with fields has texts for keys if no field is there twice. -/
@[simp] theorem hasTextKeys_fields (fs : List (String × Document)) :
    (fields fs).hasTextKeys = (decide ((fs.map Prod.fst).Nodup) && fs.all fun f => f.2.hasTextKeys) := by
  have keys : (Entries.ofFields fs).map Prod.fst = (fs.map Prod.fst).map Scalar.text := by
    rw [Entries.ofFields, List.map_map, List.map_map]
    rfl
  have texts : ((Entries.ofFields fs).all fun e => e.1.isText) = true := by
    rw [Entries.ofFields, List.all_map, List.all_eq_true]
    intro f _
    rfl
  have nodup : ((fs.map Prod.fst).map Scalar.text).Nodup ↔ (fs.map Prod.fst).Nodup :=
    List.nodup_map_iff fun _ _ => Scalar.text.inj
  rw [fields, hasTextKeys_mapping, isKeyed, texts, Bool.true_and, keys]
  simp only [nodup]
  rw [Entries.ofFields, List.all_map]
  rfl

end Document

/-! ## What is read is loadable -/

namespace Demands

/-- No argument of an annotation is named twice. -/
def loadable : Demands where
  names := fun ns => decide ns.Nodup

end Demands

/-- Whether a program is one that can be read. -/
def Program.isLoadable (p : Program) : Bool := p.meets .loadable

namespace Document

/-- Keys that are different texts are different as texts. -/
theorem nodup_asText {es : Entries} (keyed : (Document.mapping es).isKeyed = true) :
    (es.map fun e => e.1.asText).Nodup := by
  rw [isKeyed, Bool.and_eq_true, decide_eq_true_eq, List.all_eq_true] at keyed
  obtain ⟨texts, nodup⟩ := keyed
  have asTexts : (es.map fun e => e.1.asText) = (es.map Prod.fst).map Scalar.asText := by
    rw [List.map_map]
    rfl
  have text : ∀ k ∈ es.map Prod.fst, ∃ s, k = .text s := by
    intro k there
    obtain ⟨e, inside, rfl⟩ := List.mem_map.1 there
    have isText := texts e inside
    cases key : e.1 with
    | text s => exact ⟨s, rfl⟩
    | _ =>
      rw [key] at isText
      cases isText
  rw [asTexts]
  apply nodup.map_on
  intro a first b second same
  obtain ⟨s, rfl⟩ := text a first
  obtain ⟨t, rfl⟩ := text b second
  exact congrArg Scalar.text same

/-- A document whose keys are texts meets the demand on names. -/
theorem meets_loadable {d : Document} (keys : d.hasTextKeys = true) : d.meets .loadable = true := by
  apply all_nodes_imp _ d keys
  intro node keys
  cases node with
  | mapping es =>
    rw [← hasTextKeys, hasTextKeys_mapping, Bool.and_eq_true] at keys
    rw [answers, Bool.and_eq_true, List.all_eq_true]
    refine ⟨decide_eq_true (nodup_asText keys.1), ?_⟩
    intro e _
    exact Bool.or_true _
  | scalar s => cases s <;> rfl
  | _ => rfl

end Document

theorem Program.isLoadable_of_readProgram {d : Document} {p : Program} (keys : d.hasTextKeys = true)
    (read : readProgram d = .ok p) : p.isLoadable = true := by
  apply Program.meets_of_readProgram read
  exact Document.meets_loadable keys

/-! ## Canonical documents have texts for keys -/

mutual

theorem TypeExpr.hasTextKeys_document : ∀ t : TypeExpr, t.document.hasTextKeys = true
  | .declared n ts => by simp [TypeExpr.document, TypeExpr.hasTextKeys_documents ts]
  | .primitive k => by simp [TypeExpr.document]
  | .array t => by simp [TypeExpr.document, TypeExpr.hasTextKeys_document t]
  | .typeVariable n => by simp [TypeExpr.document]
  | .wildcard none none => by simp [TypeExpr.document]
  | .wildcard (some t) _ => by simp [TypeExpr.document, TypeExpr.hasTextKeys_document t]
  | .wildcard none (some t) => by simp [TypeExpr.document, TypeExpr.hasTextKeys_document t]
  | .noType k => by simp [TypeExpr.document]
  | .other k d => by simp [TypeExpr.document]
  | .stray _ => by simp [TypeExpr.document]

theorem TypeExpr.hasTextKeys_documents : ∀ ts : List TypeExpr,
    (Document.list (TypeExpr.documents ts)).hasTextKeys = true
  | [] => rfl
  | t :: ts => by
    have rest := TypeExpr.hasTextKeys_documents ts
    rw [Document.hasTextKeys_list] at rest ⊢
    rw [TypeExpr.documents, List.all_cons, TypeExpr.hasTextKeys_document t, rest, Bool.and_self]

end

theorem Value.names_argumentDocuments (vs : List (String × Value)) :
    (argumentDocuments vs).map Prod.fst = vs.map Prod.fst := by
  induction vs with
  | nil => rfl
  | cons v vs ih => rw [argumentDocuments, List.map_cons, List.map_cons, ih]

theorem hasTextKeys_annotationDocument (name : String) {vs : List (String × Value)}
    (distinct : Demands.loadable.names (vs.map Prod.fst) = true)
    (keys : ((Value.argumentDocuments vs).all fun f => f.2.hasTextKeys) = true) :
    (annotationDocument name (Value.argumentDocuments vs)).hasTextKeys = true := by
  have arguments : (Document.fields (Value.argumentDocuments vs)).hasTextKeys = true := by
    rw [Document.hasTextKeys_fields, Value.names_argumentDocuments, keys, Bool.and_true]
    exact distinct
  simp [annotationDocument, arguments]

mutual

theorem Value.hasTextKeys_document : ∀ v : Value, v.meets .loadable = true → v.document.hasTextKeys = true
  | .bool _, _ => rfl
  | .integer _, _ => rfl
  | .number _, _ => rfl
  | .text _, _ => rfl
  | .char _, _ => by simp [Value.document]
  | .enumConstant _ _, _ => by simp [Value.document]
  | .nested n vs, met => by
    rw [Value.meets, Bool.and_eq_true] at met
    have note := hasTextKeys_annotationDocument n met.1 (Value.hasTextKeys_argumentDocuments vs met.2)
    simp [Value.document, note]
  | .list vs, met => by
    rw [Value.meets] at met
    rw [Value.document, Document.hasTextKeys_list]
    exact Value.hasTextKeys_documents vs met
  | .type t, _ => by simp [Value.document, TypeExpr.hasTextKeys_document t]
  | .other _ _, _ => by simp [Value.document]

theorem Value.hasTextKeys_documents : ∀ vs : List Value, Value.allMeet .loadable vs = true →
    (Value.documents vs).all Document.hasTextKeys = true
  | [], _ => rfl
  | v :: vs, met => by
    rw [Value.allMeet, Bool.and_eq_true] at met
    rw [Value.documents, List.all_cons, Value.hasTextKeys_document v met.1, Value.hasTextKeys_documents vs met.2,
      Bool.and_self]

theorem Value.hasTextKeys_argumentDocuments : ∀ vs : List (String × Value), Value.argumentsMeet .loadable vs = true →
    ((Value.argumentDocuments vs).all fun f => f.2.hasTextKeys) = true
  | [], _ => rfl
  | (_, v) :: vs, met => by
    rw [Value.argumentsMeet, Bool.and_eq_true] at met
    rw [Value.argumentDocuments, List.all_cons, Value.hasTextKeys_document v met.1,
      Value.hasTextKeys_argumentDocuments vs met.2, Bool.and_self]

end

/-- The documents of several parts have texts for keys if each of them has. -/
theorem Document.hasTextKeys_each {α : Type} {document : α → Document} {good : α → Bool}
    (each : ∀ a, good a = true → (document a).hasTextKeys = true) {as : List α} (all : as.all good = true) :
    (as.all fun a => (document a).hasTextKeys) = true := by
  rw [List.all_eq_true] at all ⊢
  intro a there
  exact each a (all a there)

theorem Annotation.hasTextKeys_document (a : Annotation) (met : a.meets .loadable = true) :
    a.document.hasTextKeys = true := by
  unfold Annotation.meets at met
  rw [Bool.and_eq_true] at met
  exact hasTextKeys_annotationDocument a.name met.1 (Value.hasTextKeys_argumentDocuments _ met.2)

theorem TypeParameter.hasTextKeys_document (p : TypeParameter) (met : p.meets .loadable = true) :
    p.document.hasTextKeys = true := by
  rw [TypeParameter.meets, Bool.and_eq_true] at met
  have annotations := Document.hasTextKeys_each Annotation.hasTextKeys_document met.2
  simp [TypeParameter.document, TypeExpr.hasTextKeys_document, annotations]

theorem Parameter.hasTextKeys_document (p : Parameter) (met : p.meets .loadable = true) :
    p.document.hasTextKeys = true := by
  rw [Parameter.meets, Bool.and_eq_true] at met
  have annotations := Document.hasTextKeys_each Annotation.hasTextKeys_document met.2
  simp [Parameter.document, TypeExpr.hasTextKeys_document, annotations]

theorem RecordComponent.hasTextKeys_document (c : RecordComponent) (met : c.meets .loadable = true) :
    c.document.hasTextKeys = true := by
  rw [RecordComponent.meets, Bool.and_eq_true] at met
  have annotations := Document.hasTextKeys_each Annotation.hasTextKeys_document met.2
  simp [RecordComponent.document, TypeExpr.hasTextKeys_document, annotations]

theorem Variable.hasTextKeys_document (v : Variable) (met : v.meets .loadable = true)
    (doc : v.doc.hasTextKeys = true) : v.document.hasTextKeys = true := by
  simp only [Variable.meets, Bool.and_eq_true] at met
  obtain ⟨⟨-, annotations⟩, -⟩ := met
  have annotations := Document.hasTextKeys_each Annotation.hasTextKeys_document annotations
  simp [Variable.document, TypeExpr.hasTextKeys_document, annotations, doc]

theorem Executable.hasTextKeys_document (e : Executable) (met : e.meets .loadable = true)
    (doc : e.doc.hasTextKeys = true) : e.document.hasTextKeys = true := by
  simp only [Executable.meets, Bool.and_eq_true] at met
  obtain ⟨⟨⟨⟨⟨⟨-, typeParameters⟩, -⟩, parameters⟩, -⟩, annotations⟩, -⟩ := met
  have typeParameters := Document.hasTextKeys_each TypeParameter.hasTextKeys_document typeParameters
  have parameters := Document.hasTextKeys_each Parameter.hasTextKeys_document parameters
  have annotations := Document.hasTextKeys_each Annotation.hasTextKeys_document annotations
  simp [Executable.document, TypeExpr.hasTextKeys_document, typeParameters, parameters, annotations, doc]

theorem TypeHead.hasTextKeys_document (t : TypeHead) (met : t.meets .loadable = true)
    (doc : t.doc.hasTextKeys = true) {members : List Document} (keys : members.all Document.hasTextKeys = true) :
    (t.document members).hasTextKeys = true := by
  simp only [TypeHead.meets, Bool.and_eq_true] at met
  obtain ⟨⟨⟨⟨⟨⟨-, typeParameters⟩, -⟩, -⟩, components⟩, annotations⟩, -⟩ := met
  have typeParameters := Document.hasTextKeys_each TypeParameter.hasTextKeys_document typeParameters
  have components := Document.hasTextKeys_each RecordComponent.hasTextKeys_document components
  have annotations := Document.hasTextKeys_each Annotation.hasTextKeys_document annotations
  have superclass : (superclassDocument t.superclass).hasTextKeys = true := by
    cases t.superclass with
    | none => rfl
    | some s => exact s.hasTextKeys_document
  rw [← Document.hasTextKeys_list] at keys
  simp [TypeHead.document, TypeExpr.hasTextKeys_document, typeParameters, superclass, components, keys, annotations,
    doc]

mutual

theorem Declaration.hasTextKeys_document : ∀ d : Declaration, d.meets .loadable = true →
    d.docs.all Document.hasTextKeys = true → d.document.hasTextKeys = true
  | .ofType t ds, met, docs => by
    rw [Declaration.meets, Bool.and_eq_true] at met
    rw [Declaration.docs, List.all_cons, Bool.and_eq_true] at docs
    exact t.hasTextKeys_document met.1 docs.1 (Declaration.hasTextKeys_documents ds met.2 docs.2)
  | .ofExecutable e, met, docs => by
    rw [Declaration.docs, List.all_cons, Bool.and_eq_true] at docs
    exact e.hasTextKeys_document met docs.1
  | .ofVariable v, met, docs => by
    rw [Declaration.docs, List.all_cons, Bool.and_eq_true] at docs
    exact v.hasTextKeys_document met docs.1

theorem Declaration.hasTextKeys_documents : ∀ ds : List Declaration, Declaration.allMeet .loadable ds = true →
    (Declaration.docsIn ds).all Document.hasTextKeys = true →
    (Declaration.documents ds).all Document.hasTextKeys = true
  | [], _, _ => rfl
  | d :: ds, met, docs => by
    rw [Declaration.allMeet, Bool.and_eq_true] at met
    rw [Declaration.docsIn, List.all_append, Bool.and_eq_true] at docs
    rw [Declaration.documents, List.all_cons, Declaration.hasTextKeys_document d met.1 docs.1,
      Declaration.hasTextKeys_documents ds met.2 docs.2, Bool.and_self]

end

theorem Directive.hasTextKeys_document (d : Directive) (met : d.meets .loadable = true) :
    d.document.hasTextKeys = true := by
  cases d with
  | requires m ms as =>
    have annotations := Document.hasTextKeys_each Annotation.hasTextKeys_document met
    simp [Directive.document, annotations]
  | exports p ts as =>
    have annotations := Document.hasTextKeys_each Annotation.hasTextKeys_document met
    simp [Directive.document, annotations]
  | uses t => exact t.hasTextKeys_document
  | provides t ts as =>
    simp only [Directive.meets, Bool.and_eq_true] at met
    have annotations := Document.hasTextKeys_each Annotation.hasTextKeys_document met.2
    simp [Directive.document, TypeExpr.hasTextKeys_document, annotations]
  | stray f => cases met

theorem Module.hasTextKeys_document (m : Module) (met : m.meets .loadable = true) : m.document.hasTextKeys = true := by
  rw [Module.meets, Bool.and_eq_true, List.all_eq_true] at met
  have kind : ∀ n, ((Directive.ranked n m.directives).all fun d => d.document.hasTextKeys) = true := by
    intro n
    rw [List.all_eq_true]
    intro d there
    exact d.hasTextKeys_document (met.2 d (Directive.mem_ranked.1 there).1)
  simp [Module.document, Module.fields, kind]

theorem Package.hasTextKeys_document (p : Package) (met : p.meets .loadable = true)
    (doc : p.doc.hasTextKeys = true) (docs : (Declaration.docsIn p.members).all Document.hasTextKeys = true) :
    p.document.hasTextKeys = true := by
  simp only [Package.meets, Bool.and_eq_true] at met
  obtain ⟨⟨members, annotations⟩, -⟩ := met
  have annotations := Document.hasTextKeys_each Annotation.hasTextKeys_document annotations
  have members : (p.members.all fun d => d.document.hasTextKeys) = true := by
    rw [← Declaration.allMeet_eq_all] at members
    have documents := Declaration.hasTextKeys_documents p.members members docs
    rw [Declaration.documents_eq_map, List.all_map] at documents
    exact documents
  simp [Package.document, members, annotations, doc]

/-- All documentation in a program. -/
def Program.docs (p : Program) : List Document := p.packages.flatMap fun k => k.doc :: Declaration.docsIn k.members

theorem Program.hasTextKeys_document (p : Program) (loadable : p.isLoadable = true)
    (docs : p.docs.all Document.hasTextKeys = true) : p.document.hasTextKeys = true := by
  rw [isLoadable, meets, Bool.and_eq_true] at loadable
  have modules := Document.hasTextKeys_each Module.hasTextKeys_document loadable.1
  have packages : (p.packages.all fun k => k.document.hasTextKeys) = true := by
    rw [Program.docs, List.all_flatMap, List.all_eq_true] at docs
    rw [List.all_eq_true]
    intro k there
    have keys := docs k there
    rw [List.all_cons, Bool.and_eq_true] at keys
    exact k.hasTextKeys_document (List.all_eq_true.1 loadable.2 k there) keys.1 keys.2
  simp [Program.document, modules, packages]

/-- **Exactly the loadable models can be read.** What is read from a document whose keys are texts is loadable. A
loadable model is read from its canonical document, whose keys are texts as well, those of documentation aside. -/
theorem readProgram_image (p : Program) :
    (∀ d : Document, d.hasTextKeys = true → readProgram d = .ok p → p.isLoadable = true) ∧
      (p.isLoadable = true → readProgram p.document = .ok p ∧
        (p.docs.all Document.hasTextKeys = true → p.document.hasTextKeys = true)) := by
  constructor
  · intro d keys read
    exact Program.isLoadable_of_readProgram keys read
  · intro loadable
    exact ⟨readProgram_document loadable, p.hasTextKeys_document loadable⟩

/-- A program with every kind of directive and declaration, and with nested types and values. -/
def Program.loadableSample : Program :=
  { modules := [{
      name := "m"
      modifiers := ["open"]
      directives := [.requires "a" ["static"] [], .exports "p" ["b"] [{ name := "N" }],
        .uses (.declared "S" [.wildcard (some (.typeVariable "T")) none]),
        .provides (.declared "S" []) [.array (.primitive "int")] []]
      packages := ["p"] }]
    packages := [{
      name := "p"
      members := [
        .ofType { kind := "CLASS", name := "A", superclass := some (.declared "B" [.wildcard none none]),
                  typeParameters := [{ name := "T", bounds := [.other "union" "A | B"] }],
                  doc := .text "A class." }
          [.ofExecutable { kind := "METHOD", name := "run", parameters := [{ name := "x", type := .primitive "int" }] },
            .ofVariable { kind := "FIELD", name := "f", type := .noType "none",
                          annotations := [{ name := "N", arguments := [
                            ("v", .nested "K" [("e", .enumConstant "E" "ONE"), ("c", .char "c")]),
                            ("w", .list [.bool true, .integer 5, .type (.declared "A" [])])] }] },
            .ofType { kind := "RECORD", name := "R",
                      components := [{ name := "y", type := .typeVariable "T" }] } []]] }] }

/-- The sample is loadable and is read from its canonical document, which is one whose keys are texts. -/
theorem readProgram_image_sample :
    Program.loadableSample.isLoadable = true ∧ Program.loadableSample.document.hasTextKeys = true ∧
      readProgram Program.loadableSample.document = .ok Program.loadableSample := by
  have loadable : Program.loadableSample.isLoadable = true := by decide +kernel
  have docs : Program.loadableSample.docs.all Document.hasTextKeys = true := by decide +kernel
  obtain ⟨back, keys⟩ := (readProgram_image Program.loadableSample).2 loadable
  exact ⟨(readProgram_image Program.loadableSample).1 _ (keys docs) back, keys docs, back⟩

end ProgramFacts
