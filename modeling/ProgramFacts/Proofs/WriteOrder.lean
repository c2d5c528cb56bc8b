import ProgramFacts.Proofs.KnownTypes
import ProgramFacts.Proofs.Writable

/-!
# The order of writing

A program calls for a fact of each module, and then, package by package, for those of the types in it and for its
own. A type comes behind the types that are in it. A walk writes these facts in this order and no others, all of
them if it comes to its end and otherwise those before the one it fails at.

Types of no known shape are left out with all that is in them: a walk does the same on the program in which they are
empty.
-/

namespace ProgramFacts

/-! ## What is written -/

/-- What a fact is about. -/
inductive Subject
  | module (m : Module)
  | type (package : String) (t : TypeHead) (members : List Declaration)
  | package (p : Package)

namespace Subject

def key : Subject → Key
  | .module m => .module m.name
  | .type owner t _ => .type owner t.name
  | .package p => .package p.name

/-- The fact that the walk of the subject alone gives. -/
def HasFact (docs : Bool) : Subject → Term → Prop
  | .module m, f => m.visit.result = .ok f
  | .type owner t ds, f => (visitType docs owner t ds).result = .ok (some f)
  | .package p, f => (p.visit docs).result = .ok f

/-- A write of the subject's own fact, under its own key. -/
def WrittenAs (docs : Bool) (s : Subject) (call : Key × Term) : Prop := call.1 = s.key ∧ s.HasFact docs call.2

end Subject

/-- The types in some members of a package. -/
def typeSubjects (package : String) (ts : List (TypeHead × List Declaration)) : List Subject :=
  ts.map fun t => .type package t.1 t.2

def Package.subjects (p : Package) : List Subject :=
  typeSubjects p.name (Declaration.typesIn p.members) ++ [.package p]

/-- What the facts of a program are about, in the order in which they are written. -/
def Program.subjects (p : Program) : List Subject :=
  p.modules.map .module ++ p.packages.flatMap Package.subjects

/-! ## One step after the other -/

open Walk (writes_bind_eq_nil writes_noted)

theorem Executable.writes_visit (docs : Bool) (e : Executable) : (e.visit docs).writes = [] := by
  rw [Executable.visit]
  split
  · repeat refine writes_noted fun _ => ?_
    exact writes_bind_eq_nil rfl fun _ => rfl
  · split
    · repeat refine writes_noted fun _ => ?_
      exact writes_bind_eq_nil rfl fun _ => rfl
    · rfl

theorem Variable.writes_visit (docs : Bool) (v : Variable) : (v.visit docs).writes = [] := by
  rw [Variable.visit]
  split
  · rfl
  · split
    · repeat refine writes_noted fun _ => ?_
      exact writes_bind_eq_nil rfl fun _ => rfl
    · rfl

theorem TypeHead.writes_fact (docs : Bool) (package : String) (t : TypeHead) (members : List Term)
    (shape : TypeShape) : (t.fact docs package members shape).writes = [] := by
  cases shape
  all_goals
    repeat refine writes_noted fun _ => ?_
    exact writes_bind_eq_nil rfl fun _ => rfl

theorem Directive.writes_visit (moduleName : String) (d : Directive) : (d.visit moduleName).writes = [] := by
  cases d with
  | requires m ms as =>
    rw [Directive.visit]
    split
    · rfl
    · exact writes_noted fun _ => rfl
  | exports p ts as => exact writes_noted fun _ => rfl
  | uses t => exact writes_noted fun _ => rfl
  | provides t ts as => exact writes_noted fun _ => writes_noted fun _ => writes_noted fun _ => rfl
  | stray f => exact writes_bind_eq_nil rfl fun _ => rfl

theorem Directive.writes_visitList (moduleName : String) (ds : List Directive) :
    (Directive.visitList moduleName ds).writes = [] := by
  induction ds with
  | nil => rfl
  | cons d ds ih =>
    rw [Directive.visitList]
    exact writes_bind_eq_nil (Directive.writes_visit moduleName d) fun _ => writes_bind_eq_nil ih fun _ => rfl

/-! The types in a declaration are written in order, each with the fact that its own walk gives. -/

theorem typeSubjects_append (package : String) (a b : List (TypeHead × List Declaration)) :
    typeSubjects package (a ++ b) = typeSubjects package a ++ typeSubjects package b :=
  List.map_append

/-- The result of the walk of a type whose members and whose own fact have none of the faults. -/
theorem visitType_result {docs : Bool} {package : String} {t : TypeHead} {ds : List Declaration} {shape : TypeShape}
    (known : TypeShape.ofKind? t.kind = some shape) {members : List Term}
    (walked : (visitMembers docs package ds).result = .ok members) {f : Term}
    (built : (t.fact docs package members shape).result = .ok f) :
    (visitType docs package t ds).result = .ok (some f) := by
  rw [visitType, TypeHead.visitWith, known]
  dsimp only
  rw [Walk.result_bind_of_ok walked, Walk.result_bind_of_ok built]
  rfl

/-- A type is written behind the types in it. -/
theorem visitType_answers {docs : Bool} {package : String} {ds : List Declaration} (t : TypeHead)
    (members : (visitMembers docs package ds).Answers (Subject.WrittenAs docs) false
      (typeSubjects package (Declaration.typesIn ds))) :
    (visitType docs package t ds).Answers (Subject.WrittenAs docs) true
      (typeSubjects package (Declaration.types (.ofType t ds))) := by
  rw [Declaration.types]
  cases known : TypeShape.ofKind? t.kind with
  | none =>
    rw [if_neg (by simp [TypeHead.isKnown, known]), visitType, TypeHead.visitWith, known]
    exact ⟨[], [], rfl, .nil, fun _ => rfl, fun _ _ => rfl⟩
  | some shape =>
    rw [if_pos (by simp [TypeHead.isKnown, known]), typeSubjects_append, visitType, TypeHead.visitWith, known]
    refine members.bind (fun ms walked => ?_) fun _ => Or.inr (List.cons_ne_nil _ _)
    have quiet := Walk.answers_nil (R := Subject.WrittenAs docs) (TypeHead.writes_fact docs package t ms shape)
    refine quiet.bind (fun f built => ?_) fun _ => Or.inr (List.cons_ne_nil _ _)
    exact Walk.answers_write ⟨rfl, visitType_result known walked built⟩ rfl rfl

mutual

theorem visitMember_answers (docs : Bool) (package : String) :
    ∀ d : Declaration, (visitMember docs package d).Answers (Subject.WrittenAs docs) false
      (typeSubjects package d.types)
  | .ofType t ds => by
    have type := (visitType_answers t (visitMembers_answers docs package ds)).relax
    rw [visitMember]
    exact type.before (fun _ => rfl) fun _ => rfl
  | .ofExecutable e => by
    rw [visitMember]
    exact Walk.answers_nil (Executable.writes_visit docs e)
  | .ofVariable v => by
    rw [visitMember]
    exact Walk.answers_nil (Variable.writes_visit docs v)
  | .stray f => by
    rw [visitMember]
    exact Walk.answers_nil (writes_bind_eq_nil rfl fun _ => rfl)

theorem visitMembers_answers (docs : Bool) (package : String) :
    ∀ ds : List Declaration, (visitMembers docs package ds).Answers (Subject.WrittenAs docs) false
      (typeSubjects package (Declaration.typesIn ds))
  | [] => by
    rw [visitMembers]
    exact Walk.answers_nil rfl
  | d :: ds => by
    rw [visitMembers, Declaration.typesIn, typeSubjects_append]
    refine (visitMember_answers docs package d).bind (fun m _ => ?_) fun impossible => Bool.noConfusion impossible
    exact (visitMembers_answers docs package ds).before (fun _ => rfl) fun _ => rfl

end

/-! ## Scopes and programs -/

theorem Module.visit_answers (docs : Bool) (m : Module) :
    m.visit.Answers (Subject.WrittenAs docs) true [.module m] := by
  have quiet := Walk.answers_nil (R := Subject.WrittenAs docs) (Directive.writes_visitList m.name m.directives)
  rw [Module.visit]
  refine quiet.bind (fun ds walked => Walk.answers_write ⟨rfl, ?_⟩ rfl rfl) fun _ => Or.inr (List.cons_ne_nil _ _)
  rw [Subject.HasFact, Module.visit, Walk.result_bind_of_ok walked]
  rfl

theorem visitPackageMembers_answers (docs : Bool) (package : String) (ds : List Declaration) :
    (visitPackageMembers docs package ds).Answers (Subject.WrittenAs docs) false
      (typeSubjects package (Declaration.typesIn ds)) := by
  induction ds with
  | nil => exact Walk.answers_nil rfl
  | cons d ds ih =>
    have first : (visitPackageMember docs package d).Answers (Subject.WrittenAs docs) false
        (typeSubjects package d.types) := by
      cases d with
      | ofType t members =>
        rw [visitPackageMember_ofType]
        exact visitMember_answers docs package (.ofType t members)
      | ofExecutable e => exact Walk.answers_nil rfl
      | ofVariable v => exact Walk.answers_nil rfl
      | stray f => exact Walk.answers_nil (writes_bind_eq_nil rfl fun _ => rfl)
    rw [visitPackageMembers, Declaration.typesIn, typeSubjects_append]
    exact first.bind (fun _ _ => ih.before (fun _ => rfl) fun _ => rfl) fun impossible => Bool.noConfusion impossible

/-- A package is written behind the types in it. -/
theorem Package.visit_answers (docs : Bool) (p : Package) :
    (p.visit docs).Answers (Subject.WrittenAs docs) true p.subjects := by
  rw [Package.visit, Package.subjects]
  refine (visitPackageMembers_answers docs p.name p.members).bind
    (fun ms walked => Walk.answers_write ⟨rfl, ?_⟩ rfl rfl) fun _ => Or.inr (List.cons_ne_nil _ _)
  rw [Subject.HasFact, Package.visit, Walk.result_bind_of_ok walked]
  rfl

def Scope.subjects : Scope → List Subject
  | .module m => [.module m]
  | .package p => p.subjects

theorem Program.subjects_eq (p : Program) : p.subjects = p.scopes.flatMap Scope.subjects := by
  rw [Program.subjects, Program.scopes, List.flatMap_append, List.flatMap_map, List.flatMap_map]
  congr 1
  exact List.map_eq_flatMap

theorem Scope.visit_answers (docs : Bool) (s : Scope) :
    (s.visit docs).Answers (Subject.WrittenAs docs) true s.subjects := by
  cases s with
  | module m => exact Module.visit_answers docs m
  | package p => exact Package.visit_answers docs p

theorem walkScopes_answers (docs : Bool) (ss : List Scope) (i : Index) :
    (walkScopes docs i ss).Answers (Subject.WrittenAs docs) true (ss.flatMap Scope.subjects) := by
  induction ss generalizing i with
  | nil => exact ⟨[], [], rfl, .nil, fun _ => rfl, fun _ _ => rfl⟩
  | cons s ss ih =>
    rw [walkScopes, List.flatMap_cons]
    exact (Scope.visit_answers docs s).bind (fun _ _ => ih _) fun _ => Or.inl rfl

theorem Program.walk_answers (docs : Bool) (p : Program) :
    (p.walk docs).Answers (Subject.WrittenAs docs) true p.subjects := by
  rw [Program.subjects_eq]
  exact walkScopes_answers docs p.scopes {}

/-! ## All writes of a program -/

/-- The writes of subjects are made under their keys. -/
theorem Subject.keys_of_writes {docs : Bool} {ss : List Subject} {calls : List (Key × Term)}
    (wrote : List.Forall₂ (Subject.WrittenAs docs) ss calls) : calls.map Prod.fst = ss.map Subject.key := by
  induction wrote with
  | nil => rfl
  | cons here _ ih => rw [List.map_cons, List.map_cons, here.1, ih]

/-- Each subject is among those that are written, with its fact. -/
theorem Subject.mem_writes {docs : Bool} {ss : List Subject} {calls : List (Key × Term)}
    (wrote : List.Forall₂ (Subject.WrittenAs docs) ss calls) {s : Subject} (member : s ∈ ss) :
    ∃ fact, s.HasFact docs fact ∧ (s.key, fact) ∈ calls := by
  induction wrote with
  | nil => cases member
  | @cons _ call _ _ here _ ih =>
    rcases List.mem_cons.1 member with rfl | later
    · exact ⟨call.2, here.2, by rw [← here.1]; exact List.mem_cons_self⟩
    · obtain ⟨fact, own, there⟩ := ih later
      exact ⟨fact, own, List.mem_cons_of_mem _ there⟩

theorem Subject.of_mem_writes {docs : Bool} {ss : List Subject} {calls : List (Key × Term)}
    (wrote : List.Forall₂ (Subject.WrittenAs docs) ss calls) {call : Key × Term} (there : call ∈ calls) :
    ∃ s ∈ ss, s.WrittenAs docs call := by
  induction wrote with
  | nil => cases there
  | cons here _ ih =>
    rcases List.mem_cons.1 there with rfl | later
    · exact ⟨_, List.mem_cons_self, here⟩
    · obtain ⟨s, member, written⟩ := ih later
      exact ⟨s, List.mem_cons_of_mem _ member, written⟩

/-- The walk of a subject gives one fact. -/
theorem Subject.HasFact.unique {docs : Bool} {s : Subject} {fact fact' : Term} (own : s.HasFact docs fact)
    (own' : s.HasFact docs fact') : fact = fact' := by
  cases s with
  | module m => exact Except.ok.inj (own.symm.trans own')
  | type package t ds => exact Option.some.inj (Except.ok.inj (own.symm.trans own'))
  | package p => exact Except.ok.inj (own.symm.trans own')

section Walked

variable {docs : Bool} {p : Program} {i : Index} (ended : (p.walk docs).result = .ok i)

include ended

theorem Program.writes_subjects : List.Forall₂ (Subject.WrittenAs docs) p.subjects (p.walk docs).writes := by
  obtain ⟨done, rest, split, wrote, whole, -⟩ := Program.walk_answers docs p
  obtain rfl := whole (Walk.isOk_iff.2 ⟨i, ended⟩)
  rw [List.append_nil] at split
  rwa [split]

theorem Program.hasFact_of_mem {s : Subject} (member : s ∈ p.subjects) : ∃ fact, s.HasFact docs fact := by
  obtain ⟨fact, own, -⟩ := Subject.mem_writes (Program.writes_subjects ended) member
  exact ⟨fact, own⟩

/-- A walk that comes to its end writes the facts of the subjects, and no others. -/
theorem Program.mem_writes {key : Key} {fact : Term} :
    (key, fact) ∈ (p.walk docs).writes ↔ ∃ s ∈ p.subjects, key = s.key ∧ s.HasFact docs fact := by
  constructor
  · intro there
    exact Subject.of_mem_writes (Program.writes_subjects ended) there
  · rintro ⟨s, member, rfl, own⟩
    obtain ⟨fact', own', there⟩ := Subject.mem_writes (Program.writes_subjects ended) member
    rwa [own.unique own']

end Walked

/-- **What a walk writes, and in which order.** Where all documentation is absent or a text, the writes are those of
the subjects from the first on, each under its key and with its fact. They are all of them if and only if every
integer that a fact or a warning shows can be written, and then the walk comes to its end. Among the subjects is each
type that is at some place of a package, once for every place. What is in a type of no known shape changes nothing. -/
theorem Program.walk_writes_in_order {p : Program} (text : p.hasTextDocs = true) (docs : Bool) :
    (∃ done rest, p.subjects = done ++ rest ∧ List.Forall₂ (Subject.WrittenAs docs) done (p.walk docs).writes ∧
      (rest = [] ↔ p.isWritable = true)) ∧
    (p.walk docs).isOk = p.isWritable ∧
    (∀ q ∈ p.packages, (Declaration.placesIn q.members).Nodup ∧
      (∀ place, place ∈ Declaration.placesIn q.members ↔ (Declaration.typeAtIn? q.members place).isSome = true) ∧
      (Declaration.placesIn q.members).map (Declaration.typeAtIn? q.members) =
        (Declaration.typesIn q.members).map some) ∧
    p.pruned.walk docs = p.walk docs := by
  have ends := Program.isOk_walk text docs
  refine ⟨?_, ends, ?_, Program.walk_pruned docs p⟩
  · obtain ⟨done, rest, split, wrote, whole, only⟩ := Program.walk_answers docs p
    rw [ends] at whole only
    exact ⟨done, rest, split, wrote, only rfl, whole⟩
  · intro q _
    exact ⟨Declaration.nodup_placesIn _, Declaration.mem_placesIn _, Declaration.map_placesIn _⟩

/-- Two types with the same name, one of them in the other beside a type of no known shape that has a class in it. -/
def Program.nestedSample : Program :=
  { modules := [{ name := "m" }]
    packages := [{
      name := "p"
      members := [
        .ofType { kind := "CLASS", name := "A", doc := .scalar (.text "Outer.") }
          [.ofType { kind := "OTHER", name := "B" } [.ofType { kind := "CLASS", name := "C" } []],
            .ofType { kind := "RECORD", name := "A" } []]] }] }

theorem Program.walk_writes_in_order_nested :
    Program.nestedSample.hasTextDocs = true ∧ Program.nestedSample.isWritable = true ∧
      (Program.nestedSample.walk true).writes.map Prod.fst =
        [.module "m", .type "p" "A", .type "p" "A", .package "p"] := by
  have text : Program.nestedSample.hasTextDocs = true := by decide
  have writable : Program.nestedSample.isWritable = true := by decide
  obtain ⟨⟨done, rest, split, wrote, whole⟩, -⟩ := Program.walk_writes_in_order text true
  obtain rfl := whole.2 writable
  rw [List.append_nil] at split
  refine ⟨text, writable, ?_⟩
  rw [Subject.keys_of_writes wrote, ← split]
  rfl

/-- A class with an annotation that has the integer as an argument. -/
def Program.notedSample (n : Int) : Program :=
  { packages := [{
      name := "p"
      members := [
        .ofType { kind := "CLASS", name := "A", annotations := [{ name := "N", arguments := [("v", .integer n)] }] }
          []] }] }

theorem Program.isWritable_notedSample (n : Int) : (Program.notedSample n).isWritable = Numeral.isWritable n := by
  change (Numeral.isWritable n && true && true) = Numeral.isWritable n
  rw [Bool.and_true, Bool.and_true]

/-- The class and its package call for facts; if the integer has too many digits, not all of them are written. -/
theorem Program.walk_oversized_stops_short :
    (Program.notedSample Numeral.writableBound).hasTextDocs = true ∧
      (Program.notedSample Numeral.writableBound).subjects.map Subject.key = [.type "p" "A", .package "p"] ∧
      ∀ docs, ((Program.notedSample Numeral.writableBound).walk docs).writes.map Prod.fst ≠
        [.type "p" "A", .package "p"] := by
  have text : ∀ n, (Program.notedSample n).hasTextDocs = true := fun _ => rfl
  have keys : ∀ n, (Program.notedSample n).subjects.map Subject.key = [.type "p" "A", .package "p"] := fun _ => rfl
  refine ⟨text _, keys _, fun docs same => ?_⟩
  obtain ⟨done, rest, split, wrote, -, only⟩ := Program.walk_answers docs (Program.notedSample Numeral.writableBound)
  rw [← keys Numeral.writableBound, Subject.keys_of_writes wrote, split, List.map_append,
    List.self_eq_append_right, List.map_eq_nil_iff] at same
  have ends := only rfl same
  rw [Program.isOk_walk (text _) docs, Program.isWritable_notedSample,
    Numeral.not_isWritable_writableBound] at ends
  exact Bool.noConfusion ends

end ProgramFacts
