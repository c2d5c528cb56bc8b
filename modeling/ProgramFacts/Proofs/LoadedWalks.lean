import ProgramFacts.Proofs.Reading.Models
import ProgramFacts.Proofs.Writable

/-!
# Walks of programs that were read

Reading makes texts of names, kinds and modifiers, so that a walk has a term for each of them. Integers among the
values of annotations, and documentation, go into a model as the document has them. A walk of a program that was read
therefore comes to its end unless it shows one of these that has no term, and there is none if the document has none.
-/

namespace ProgramFacts

/-! ## What a walk shows is as demanded -/

section Shown

variable {q : Demands}

/-- Whether what a walk shows is as demanded. -/
def Shown.meets (q : Demands) : Shown → Bool
  | .note a => a.meets q
  | .type t => t.isLoadable
  | .stray _ => false

theorem all_shownNotes (as : List Annotation) : (shownNotes as).all (Shown.meets q) = as.all (·.meets q) := by
  rw [shownNotes, List.all_map]
  rfl

theorem all_shownTypes (ts : List TypeExpr) : (shownTypes ts).all (Shown.meets q) = ts.all TypeExpr.isLoadable := by
  rw [shownTypes, List.all_map]
  rfl

/-- What parts of a declaration show is as demanded if the parts are. -/
theorem all_flatMap_meets {α : Type} {meets : α → Bool} {shown : α → List Shown}
    (each : ∀ x, meets x = true → (shown x).all (Shown.meets q) = true) {xs : List α}
    (met : xs.all meets = true) : (xs.flatMap shown).all (Shown.meets q) = true := by
  rw [List.all_flatMap, List.all_eq_true]
  intro x there
  exact each x (List.all_eq_true.1 met x there)

theorem TypeParameter.all_shown_meet (p : TypeParameter) (met : p.meets q = true) :
    p.shown.all (Shown.meets q) = true := by
  rw [TypeParameter.shown, List.all_append, all_shownTypes, all_shownNotes]
  exact met

theorem Parameter.all_shown_meet (p : Parameter) (met : p.meets q = true) :
    p.shown.all (Shown.meets q) = true := by
  rw [Parameter.shown, List.all_cons, all_shownNotes]
  exact met

theorem RecordComponent.all_shown_meet (c : RecordComponent) (met : c.meets q = true) :
    c.shown.all (Shown.meets q) = true := by
  rw [RecordComponent.shown, List.all_cons, all_shownNotes]
  exact met

theorem Executable.all_shown_meet {e : Executable} (met : e.meets q = true) :
    (e.shown.all (Shown.meets q) && e.shownDocs.all q.doc) = true := by
  simp only [Executable.meets, Bool.and_eq_true] at met
  obtain ⟨⟨⟨⟨⟨⟨_, typeParameters⟩, returned⟩, parameters⟩, thrown⟩, annotations⟩, doc⟩ := met
  have bounds := all_flatMap_meets TypeParameter.all_shown_meet typeParameters
  have passed := all_flatMap_meets Parameter.all_shown_meet parameters
  have result : (if e.kind = "METHOD" then shownTypes [e.returnType] else []).all (Shown.meets q) = true := by
    split
    · rw [all_shownTypes, List.all_cons, returned, List.all_nil, Bool.and_self]
    · rfl
  unfold Executable.shown Executable.shownDocs
  split
  · simp only [List.all_append, List.all_cons, List.all_nil, all_shownTypes, all_shownNotes, bounds, result, passed,
      thrown, annotations, doc, Bool.and_self]
  · rfl

theorem Variable.all_shown_meet {v : Variable} (met : v.meets q = true) :
    (v.shown.all (Shown.meets q) && v.shownDocs.all q.doc) = true := by
  simp only [Variable.meets, Bool.and_eq_true] at met
  obtain ⟨⟨⟨_, type⟩, annotations⟩, doc⟩ := met
  unfold Variable.shown Variable.shownDocs
  split
  · simp only [List.all_cons, List.all_nil, all_shownNotes, Shown.meets, type, annotations, doc, Bool.and_self]
  · rfl

theorem TypeHead.all_shown_meet {t : TypeHead} (met : t.meets q = true) (shape : TypeShape) :
    ((t.shown shape).all (Shown.meets q) && q.doc t.doc) = true := by
  simp only [TypeHead.meets, Bool.and_eq_true] at met
  obtain ⟨⟨⟨⟨⟨⟨_, typeParameters⟩, superclass⟩, interfaces⟩, components⟩, annotations⟩, doc⟩ := met
  have bounds := all_flatMap_meets TypeParameter.all_shown_meet typeParameters
  have header := all_flatMap_meets RecordComponent.all_shown_meet components
  have extended : t.superclass.toList.all TypeExpr.isLoadable = true := by
    cases found : t.superclass with
    | none => rfl
    | some u =>
      rw [found] at superclass
      rw [Option.toList_some, List.all_cons, List.all_nil, Bool.and_true]
      exact superclass
  cases shape <;>
    simp only [TypeHead.shown, List.all_append, all_shownTypes, all_shownNotes, bounds, extended, interfaces, header,
      annotations, doc, Bool.and_self]

mutual

theorem Declaration.all_shown_meet : ∀ d : Declaration, d.meets q = true →
    (d.shown.all (Shown.meets q) && d.shownDocs.all q.doc) = true
  | .ofType t ds => by
    intro met
    rw [Declaration.meets, Bool.and_eq_true] at met
    have inner := Declaration.all_shownIn_meet ds met.2
    rw [Declaration.shown, Declaration.shownDocs]
    cases TypeShape.ofKind? t.kind with
    | none => rfl
    | some shape =>
      have own := TypeHead.all_shown_meet met.1 shape
      simp only [all_append_and, inner, List.all_cons, List.all_nil, Bool.and_true, own]
  | .ofExecutable e => by
    intro met
    rw [Declaration.shown, Declaration.shownDocs]
    exact Executable.all_shown_meet met
  | .ofVariable v => by
    intro met
    rw [Declaration.shown, Declaration.shownDocs]
    exact Variable.all_shown_meet met
  | .stray _ => fun met => by cases met

theorem Declaration.all_shownIn_meet : ∀ ds : List Declaration, Declaration.allMeet q ds = true →
    ((Declaration.shownIn ds).all (Shown.meets q) && (Declaration.shownDocsIn ds).all q.doc) = true
  | [] => fun _ => rfl
  | d :: ds => by
    intro met
    rw [Declaration.allMeet, Bool.and_eq_true] at met
    rw [Declaration.shownIn, Declaration.shownDocsIn, all_append_and, Declaration.all_shown_meet d met.1,
      Declaration.all_shownIn_meet ds met.2, Bool.and_self]

end

theorem Directive.all_shown_meet (d : Directive) (met : d.meets q = true) : d.shown.all (Shown.meets q) = true := by
  cases d with
  | requires m ms as =>
    rw [Directive.shown]
    split
    · rfl
    · rw [all_shownNotes]
      exact met
  | exports p ts as =>
    rw [Directive.shown, all_shownNotes]
    exact met
  | uses t =>
    rw [Directive.shown, all_shownTypes, List.all_cons, List.all_nil, Bool.and_true]
    exact met
  | provides t ts as =>
    rw [Directive.shown, List.all_append, List.all_append, all_shownTypes, all_shownTypes, all_shownNotes,
      List.all_cons, List.all_nil, Bool.and_true]
    exact met
  | stray f => cases met

theorem Scope.all_shown_meet_module {m : Module} (met : m.meets q = true) :
    ((Scope.module m).shown.all (Shown.meets q) && (Scope.module m).shownDocs.all q.doc) = true := by
  rw [Module.meets, Bool.and_eq_true] at met
  rw [Scope.shown, Scope.shownDocs, List.all_nil, Bool.and_true]
  exact all_flatMap_meets Directive.all_shown_meet met.2

theorem Declaration.all_shownInPackage_meet (d : Declaration) (met : d.meets q = true) :
    (d.shownInPackage.all (Shown.meets q) && d.shownDocsInPackage.all q.doc) = true := by
  cases d with
  | ofType t ds => exact Declaration.all_shown_meet _ met
  | ofExecutable e => rfl
  | ofVariable v => rfl
  | stray f => cases met

theorem Scope.all_shown_meet_package {p : Package} (met : p.meets q = true) :
    ((Scope.package p).shown.all (Shown.meets q) && (Scope.package p).shownDocs.all q.doc) = true := by
  simp only [Package.meets, Bool.and_eq_true] at met
  have members := List.all_eq_true.1 met.1.1
  have each : ∀ d ∈ p.members, d.shownInPackage.all (Shown.meets q) = true ∧ d.shownDocsInPackage.all q.doc = true := by
    intro d there
    exact Bool.and_eq_true_iff.1 (Declaration.all_shownInPackage_meet d (members d there))
  rw [Scope.shown, Scope.shownDocs, List.all_flatMap, List.all_flatMap, Bool.and_eq_true, List.all_eq_true,
    List.all_eq_true]
  exact ⟨fun d there => (each d there).1, fun d there => (each d there).2⟩

/-- What the walk of a program shows is as demanded if the program is. -/
theorem Program.all_shown_meet {p : Program} (met : p.meets q = true) :
    p.shown.all (Shown.meets q) = true ∧ p.shownDocs.all q.doc = true := by
  rw [Program.meets, Bool.and_eq_true] at met
  have each : ∀ s ∈ p.scopes, (s.shown.all (Shown.meets q) && s.shownDocs.all q.doc) = true := by
    intro s there
    rcases List.mem_append.1 there with inModules | inPackages
    · obtain ⟨m, found, rfl⟩ := List.mem_map.1 inModules
      exact Scope.all_shown_meet_module (List.all_eq_true.1 met.1 m found)
    · obtain ⟨k, found, rfl⟩ := List.mem_map.1 inPackages
      exact Scope.all_shown_meet_package (List.all_eq_true.1 met.2 k found)
  rw [Program.shown, Program.shownDocs, List.all_flatMap, List.all_flatMap, List.all_eq_true, List.all_eq_true]
  constructor
  · intro s there
    exact (Bool.and_eq_true _ _ ▸ each s there).1
  · intro s there
    exact (Bool.and_eq_true _ _ ▸ each s there).2

end Shown

/-! ## What has a term -/

/-- Integers with few enough digits. -/
def Demands.writable : Demands where
  integer := Numeral.isWritable

theorem Demands.integer_writable (n : Int) : Demands.writable.integer n = Numeral.isWritable n := by
  rw [Demands.writable]

/-- Documentation that is a text, or that counts as not given. -/
def Demands.prose : Demands where
  doc := Document.isProse

mutual

theorem TypeExpr.isWritable_of_isLoadable : ∀ t : TypeExpr, t.isLoadable = true → t.isWritable = true
  | .declared _ ts => fun loadable => TypeExpr.areWritable_of_areLoadable ts loadable
  | .array t | .wildcard (some t) none | .wildcard none (some t) =>
    fun loadable => TypeExpr.isWritable_of_isLoadable t loadable
  | .wildcard (some _) (some _) => fun loadable => by cases loadable
  | .wildcard none none | .primitive _ | .typeVariable _ | .noType _ | .other _ _ => fun _ => rfl
  | .stray _ => fun loadable => by cases loadable

theorem TypeExpr.areWritable_of_areLoadable : ∀ ts : List TypeExpr, TypeExpr.areLoadable ts = true →
    TypeExpr.areWritable ts = true
  | [] => fun _ => rfl
  | t :: ts => by
    intro loadable
    rw [TypeExpr.areLoadable, Bool.and_eq_true] at loadable
    rw [TypeExpr.areWritable, TypeExpr.isWritable_of_isLoadable t loadable.1,
      TypeExpr.areWritable_of_areLoadable ts loadable.2, Bool.and_self]

end

mutual

theorem Value.isWritable_of_meets : ∀ v : Value, v.meets .writable = true → v.isWritable = true
  | .integer n => by
    intro met
    rw [Value.meets, Demands.integer_writable] at met
    rw [Value.isWritable, met]
  | .nested _ vs => by
    intro met
    rw [Value.meets, Bool.and_eq_true] at met
    exact Value.areArgumentsWritable_of_meets vs met.2
  | .list vs => fun met => Value.areWritable_of_meets vs met
  | .type t => fun met => t.isWritable_of_isLoadable met
  | .stray _ => fun met => by cases met
  | .bool _ | .number _ | .text _ | .char _ | .enumConstant _ _ | .other _ _ => fun _ => rfl

theorem Value.areWritable_of_meets : ∀ vs : List Value, Value.allMeet .writable vs = true →
    Value.areWritable vs = true
  | [] => fun _ => rfl
  | v :: vs => by
    intro met
    rw [Value.allMeet, Bool.and_eq_true] at met
    rw [Value.areWritable, Value.isWritable_of_meets v met.1, Value.areWritable_of_meets vs met.2, Bool.and_self]

theorem Value.areArgumentsWritable_of_meets : ∀ vs : List (String × Value),
    Value.argumentsMeet .writable vs = true → Value.areArgumentsWritable vs = true
  | [] => fun _ => rfl
  | (_, v) :: vs => by
    intro met
    rw [Value.argumentsMeet, Bool.and_eq_true] at met
    rw [Value.areArgumentsWritable, Value.isWritable_of_meets v met.1, Value.areArgumentsWritable_of_meets vs met.2,
      Bool.and_self]

end

theorem Shown.isWritable_of_meets (s : Shown) (met : s.meets .writable = true) : s.isWritable = true := by
  cases s with
  | note a =>
    rw [Shown.meets] at met
    unfold Annotation.meets at met
    exact Value.areArgumentsWritable_of_meets a.arguments (Bool.and_eq_true_iff.1 met).2
  | type t => exact t.isWritable_of_isLoadable met
  | stray f => cases met

/-- A program whose integers have few enough digits has a term for everything that it shows. -/
theorem Program.isWritable_of_meets {p : Program} (met : p.meets .writable = true) : p.isWritable = true := by
  have shown := List.all_eq_true.1 (Program.all_shown_meet met).1
  rw [Program.isWritable, List.all_eq_true]
  exact fun s there => s.isWritable_of_meets (shown s there)

theorem Program.all_hasAtom_eq (p : Program) (docs : Bool) :
    p.shownDocs.all (Document.hasAtom docs) = (!docs || p.shownDocs.all Document.isProse) := by
  cases docs with
  | false => exact List.all_eq_true.2 fun _ _ => rfl
  | true => rfl

/-- **When a program that was read can be walked.** The walk comes to its end if and only if every integer that it shows
has few enough digits and, if documentation is wanted, all that it shows is a text or counts as not given. There is no
such integer where the document has none, and no such documentation where nothing under a key `doc` is such. -/
theorem walk_of_readProgram {d : Document} {p : Program} (read : readProgram d = .ok p) (docs : Bool) :
    (p.walk docs).isOk = (p.isWritable && (!docs || p.shownDocs.all Document.isProse)) ∧
      (d.meets .writable = true → p.isWritable = true) ∧
      (d.meets .prose = true → p.shownDocs.all Document.isProse = true) := by
  refine ⟨?_, ?_, ?_⟩
  · rw [Program.isOk_walk_eq, Program.all_hasAtom_eq]
  · intro met
    exact Program.isWritable_of_meets (Program.meets_of_readProgram read met)
  · intro met
    exact (Program.all_shown_meet (Program.meets_of_readProgram read met)).2

/-- A document with one class, documented as given and with an annotation. -/
def Document.classDocumented (doc : Document) : Document :=
  .mapping [(.text "packages", .list [.mapping [(.text "name", .text "p"), (.text "members", .list [.mapping [
    (.text "kind", .text "class"), (.text "name", .text "A"), (.text "doc", doc),
    (.text "annotations", .list [.mapping [(.text "name", .text "N"),
      (.text "arguments", .mapping [(.text "value", .scalar (.integer 1))])]])]])]])]

def Program.classDocumented (doc : Document) : Program :=
  { packages := [{
      name := "p"
      members := [.ofType { kind := "CLASS", name := "A", doc := doc,
                            annotations := [{ name := "N", arguments := [("value", .integer 1)] }] } []] }] }

theorem readProgram_classDocumented (doc : Document) :
    readProgram (.classDocumented doc) = .ok (.classDocumented doc) := by
  rfl

/-- A class documented by an integer is read, and is walked only if documentation is not wanted; one documented by a
text is walked in either case. -/
theorem walk_of_readProgram_documented :
    (∀ doc, readProgram (.classDocumented doc) = .ok (.classDocumented doc)) ∧
      ((Program.classDocumented (.scalar (.integer 5))).walk true).isOk = false ∧
      ((Program.classDocumented (.scalar (.integer 5))).walk false).isOk = true ∧
      ∀ docs, ((Program.classDocumented (.text "A class.")).walk docs).isOk = true := by
  have numbered := walk_of_readProgram (readProgram_classDocumented (.scalar (.integer 5)))
  refine ⟨readProgram_classDocumented, ?_, ?_, ?_⟩
  · have noProse : (Program.classDocumented (.scalar (.integer 5))).shownDocs.all Document.isProse = false := by
      decide +kernel
    rw [(numbered true).1, noProse, Bool.not_true, Bool.or_self, Bool.and_false]
  · obtain ⟨ends, writable, _⟩ := numbered false
    rw [ends, writable (by decide +kernel), Bool.not_false, Bool.true_or, Bool.and_self]
  · intro docs
    obtain ⟨ends, writable, prose⟩ := walk_of_readProgram (readProgram_classDocumented (.text "A class.")) docs
    rw [ends, writable (by decide +kernel), prose (by decide +kernel), Bool.or_true, Bool.and_self]

end ProgramFacts
