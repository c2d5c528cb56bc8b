import ProgramFacts.Proofs.Form.MemberSimulation
import ProgramFacts.Proofs.WriteOrder

/-!
# Scopes are isolated

The visit of a member gives at most one fact to the scope around it: a marker for a type, a fact for a method, a
constructor or a field. It depends on nothing but the member and its package. So the member list in the fact of a type
is made of what its direct members contribute, in order, and of nothing from other scopes.
-/

namespace ProgramFacts

/-! ## What members contribute -/

namespace Declaration

/-- What a member contributes to the fact of the type that it is in. -/
def contribution (docs : Bool) (package : String) (d : Declaration) : Option Term :=
  match (visitMember docs package d).result with
  | .ok m => m
  | .error _ => none

/-- What the members of a type contribute, in order. -/
def contributions (docs : Bool) (package : String) (ds : List Declaration) : List Term :=
  ds.flatMap fun d => (d.contribution docs package).toList

/-- The fact that a member is to contribute: a marker for a type of known shape, a fact of its own for a method, a
constructor or a field, and none for anything else. -/
def Contributes : Declaration → Option Term → Prop
  | .ofType t _, m =>
    m = if t.isKnown then some (.compound "type_declaration" [.atom t.name, .atom t.kind]) else none
  | .ofExecutable e, m =>
    if e.kind = "METHOD" then ∃ parts, m = some (.compound "method" (.atom e.name :: parts))
    else if e.kind = "CONSTRUCTOR" then ∃ parts, m = some (.compound "constructor" (.atom e.name :: parts))
    else m = none
  | .ofVariable v, m =>
    if v.kind = "FIELD" then ∃ parts, m = some (.compound "field" (.atom v.name :: parts)) else m = none
  | .stray _, m => m = none

end Declaration

open Walk (ends_pure ends_bind)

theorem Executable.visit_contributes (docs : Bool) (e : Executable) :
    (e.visit docs).Ends (Declaration.ofExecutable e).Contributes := by
  rw [Executable.visit]
  by_cases method : e.kind = "METHOD"
  · rw [if_pos method]
    repeat refine ends_bind fun _ _ => ?_
    refine ends_pure ?_
    rw [Declaration.Contributes, if_pos method]
    exact ⟨_, rfl⟩
  · rw [if_neg method]
    by_cases constructor : e.kind = "CONSTRUCTOR"
    · rw [if_pos constructor]
      repeat refine ends_bind fun _ _ => ?_
      refine ends_pure ?_
      rw [Declaration.Contributes, if_neg method, if_pos constructor]
      exact ⟨_, rfl⟩
    · rw [if_neg constructor]
      refine ends_bind fun _ _ => ends_pure ?_
      rw [Declaration.Contributes, if_neg method, if_neg constructor]

theorem Variable.visit_contributes (docs : Bool) (v : Variable) :
    (v.visit docs).Ends (Declaration.ofVariable v).Contributes := by
  rw [Variable.visit]
  by_cases ignored : v.kind ∈ ignoredVariableKinds
  · rw [if_pos ignored]
    refine ends_pure ?_
    rw [Declaration.Contributes, if_neg (Variable.kind_ne_field ignored)]
  · rw [if_neg ignored]
    by_cases field : v.kind = "FIELD"
    · rw [if_pos field]
      repeat refine ends_bind fun _ _ => ?_
      refine ends_pure ?_
      rw [Declaration.Contributes, if_pos field]
      exact ⟨_, rfl⟩
    · rw [if_neg field]
      refine ends_bind fun _ _ => ends_pure ?_
      rw [Declaration.Contributes, if_neg field]

/-- What the walk of a type comes to: nothing if it is of no known shape, and otherwise its fact, which is built after
the walk of its members. -/
theorem TypeHead.visitWith_eq_ok {t : TypeHead} {docs : Bool} {package : String} {members : Walk (List Term)}
    {f : Option Term} (walked : (t.visitWith docs package members).result = .ok f) :
    (t.isKnown = false ∧ f = none) ∨
      ∃ shape ms g, TypeShape.ofKind? t.kind = some shape ∧ members.result = .ok ms ∧
        (t.fact docs package ms shape).result = .ok g ∧ f = some g := by
  rw [TypeHead.visitWith] at walked
  cases known : TypeShape.ofKind? t.kind with
  | none =>
    rw [known] at walked
    cases walked
    exact Or.inl ⟨by rw [TypeHead.isKnown, known]; rfl, rfl⟩
  | some shape =>
    rw [known] at walked
    obtain ⟨ms, first, rest⟩ := Walk.result_bind_eq_ok.1 walked
    obtain ⟨g, built, last⟩ := Walk.result_bind_eq_ok.1 rest
    cases last
    exact Or.inr ⟨shape, ms, g, rfl, first, built, rfl⟩

theorem visitMember_contributes (docs : Bool) (package : String) (d : Declaration) :
    (visitMember docs package d).Ends d.Contributes := by
  cases d with
  | ofType t ds =>
    rw [visitMember]
    refine ends_bind fun f walked => ends_pure ?_
    rw [Declaration.Contributes]
    rcases TypeHead.visitWith_eq_ok walked with ⟨unknown, rfl⟩ | ⟨shape, ms, g, known, -, -, rfl⟩
    · rw [unknown]
      rfl
    · rw [TypeHead.isKnown, known]
      rfl
  | ofExecutable e =>
    rw [visitMember]
    exact Executable.visit_contributes docs e
  | ofVariable v =>
    rw [visitMember]
    exact Variable.visit_contributes docs v
  | stray f =>
    rw [visitMember]
    exact ends_bind fun _ _ => ends_pure rfl

/-! ## Member lists -/

/-- Where the member list stands in the facts of types, by the name of the fact. -/
def memberPlaces : List (String × Nat) := [("class", 7), ("interface", 5), ("enum", 4), ("record", 6)]

/-- The member list in the fact of a type. -/
def Term.memberList? : Term → Option (List Term)
  | .compound name parts =>
    match (memberPlaces.lookup name).bind fun place => parts[place]? with
    | some (.list ms) => some ms
    | _ => none
  | _ => none

theorem TypeHead.fact_memberList (docs : Bool) (package : String) (t : TypeHead) (ms : List Term) {shape : TypeShape}
    (listed : shape ≠ .annotationType) :
    (t.fact docs package ms shape).Ends fun f => f.memberList? = some ms := by
  cases shape with
  | annotationType => exact absurd rfl listed
  | _ =>
    repeat refine ends_bind fun _ _ => ?_
    exact ends_pure rfl

theorem visitMembers_contributions (docs : Bool) (package : String) (ds : List Declaration) :
    (visitMembers docs package ds).Ends fun ms => ms = Declaration.contributions docs package ds := by
  induction ds with
  | nil =>
    rw [visitMembers]
    exact ends_pure rfl
  | cons d ds ih =>
    rw [visitMembers]
    refine ends_bind fun m first => ends_bind fun ms others => ends_pure ?_
    have here : d.contribution docs package = m := by rw [Declaration.contribution, first]
    rw [Declaration.contributions, List.flatMap_cons, here, ih ms others]
    rfl

theorem TypeShape.ofKind?_annotationType {kind : String} (h : TypeShape.ofKind? kind = some .annotationType) :
    kind = "ANNOTATION_TYPE" := by
  grind [TypeShape.ofKind?]

/-- The fact of a type lists what its direct members contribute. -/
theorem Subject.memberList_of_hasFact {docs : Bool} {package : String} {t : TypeHead} {ds : List Declaration}
    {f : Term} (fact : (Subject.type package t ds).HasFact docs f) (listed : t.kind ≠ "ANNOTATION_TYPE") :
    f.memberList? = some (Declaration.contributions docs package ds) := by
  rcases TypeHead.visitWith_eq_ok fact with ⟨-, impossible⟩ | ⟨shape, ms, g, known, walked, built, same⟩
  · cases impossible
  · cases same
    have other : shape ≠ .annotationType := by
      intro unlisted
      rw [unlisted] at known
      exact listed (TypeShape.ofKind?_annotationType known)
    rw [← visitMembers_contributions docs package ds ms walked]
    exact TypeHead.fact_memberList docs package t ms other f built

/-! ## Isolation -/

/-- A write of a type's fact, with what its direct members contribute as its member list. -/
def ListsMembers (docs : Bool) (package : String) (type : TypeHead × List Declaration) (call : Key × Term) : Prop :=
  call.1 = .type package type.1.name ∧
    (type.1.kind ≠ "ANNOTATION_TYPE" → call.2.memberList? = some (Declaration.contributions docs package type.2))

theorem visitMember_lists (docs : Bool) (package : String) (d : Declaration) :
    ∃ done rest, d.types = done ++ rest ∧ ((visitMember docs package d).isOk = true → rest = []) ∧
      List.Forall₂ (ListsMembers docs package) done (visitMember docs package d).writes := by
  obtain ⟨done, rest, split, wrote, whole, -⟩ := visitMember_answers docs package d
  obtain ⟨done', rest', split', rfl, rfl⟩ := List.map_eq_append_iff.1 split
  refine ⟨done', rest', split', fun ok => List.map_eq_nil_iff.1 (whole ok), ?_⟩
  rw [List.forall₂_map_left_iff] at wrote
  exact wrote.imp fun type call h => ⟨h.1, Subject.memberList_of_hasFact h.2⟩

/-- **Scopes are isolated.** Whatever form stands for a member, what its visit does from a trace is done on top of it,
does not depend on it, gives at most one member to the scope and leaves the index alone. For the form of a declaration
it is what the walk of the declaration does. It comes to its end if and only if every integer that a fact or a warning
shows can be written; then it gives the fact that the declaration is to contribute, and otherwise none. In the facts of
the types that it writes stands what their direct members contribute, in order. -/
theorem visitMember_isolated (docs : Bool) :
    (∀ package f : Form, (Form.visitMember docs package f).IsFramed 1) ∧
    ∀ (package : String) (d : Declaration), d.isProper = true → d.hasTextDocs = true →
      (∀ before, (Form.visitMember docs (.text package) d.asForm).run.run before =
        ((visitMember docs package d).result.map fun _ => (),
          before.after (visitMember docs package d) (contributed (d.contribution docs package)))) ∧
      (visitMember docs package d).isOk = d.isWritable ∧
      (d.isWritable = true → d.Contributes (d.contribution docs package)) ∧
      (d.isWritable = false → d.contribution docs package = none) ∧
      ∃ done rest, d.types = done ++ rest ∧ (d.isWritable = true → rest = []) ∧
        List.Forall₂ (ListsMembers docs package) done (visitMember docs package d).writes := by
  refine ⟨Form.framed_visitMember docs, fun package d proper text => ?_⟩
  have ends : (visitMember docs package d).isOk = d.isWritable := isOk_visitMember docs package d text
  have lists := visitMember_lists docs package d
  rw [ends] at lists
  refine ⟨fun before => ?_, ends, fun writable => ?_, fun unwritable => ?_, lists⟩
  · have followed := follows_visitMember docs package proper text before
    rw [followed, Declaration.contribution]
    cases (visitMember docs package d).result <;> rfl
  · rw [← ends] at writable
    obtain ⟨m, ended⟩ := Walk.isOk_iff.1 writable
    have shape := visitMember_contributes docs package d m ended
    rwa [Declaration.contribution, ended]
  · rw [← ends] at unwritable
    cases ended : (visitMember docs package d).result with
    | ok m =>
      rw [Walk.isOk_iff.2 ⟨m, ended⟩] at unwritable
      cases unwritable
    | error e => rw [Declaration.contribution, ended]

/-- A class with a method in it, and with an enumeration that has a method of its own. -/
def Declaration.nestedSample : Declaration :=
  .ofType { kind := "CLASS", name := "Outer" }
    [.ofType { kind := "ENUM", name := "Inner" } [.ofExecutable { kind := "METHOD", name := "deep" }],
      .ofExecutable { kind := "METHOD", name := "run", doc := .scalar (.text "Runs.") },
      .ofVariable { kind := "PARAMETER", name := "x", type := .primitive "int" }]

theorem visitMember_isolated_nested :
    (Declaration.nestedSample.isProper = true ∧ Declaration.nestedSample.hasTextDocs = true ∧
      Declaration.nestedSample.isWritable = true) ∧
    ∀ before, ((Form.visitMember true (.text "p") Declaration.nestedSample.asForm).run.run before).2.scope =
      before.scope ++ [.ok (.compound "type_declaration" [.atom "Outer", .atom "CLASS"])] := by
  have proper : Declaration.nestedSample.isProper = true := by decide
  have text : Declaration.nestedSample.hasTextDocs = true := by decide
  have writable : Declaration.nestedSample.isWritable = true := by decide
  obtain ⟨visit, -, gives, -⟩ := (visitMember_isolated true).2 "p" Declaration.nestedSample proper text
  refine ⟨⟨proper, text, writable⟩, fun before => ?_⟩
  have marker : Declaration.nestedSample.contribution true "p" =
      some (.compound "type_declaration" [.atom "Outer", .atom "CLASS"]) := gives writable
  rw [visit before, marker]
  rfl

/-- A method with an annotation that has the integer as an argument. -/
def Declaration.notedMethod (n : Int) : Declaration :=
  .ofExecutable
    { kind := "METHOD", name := "run", annotations := [{ name := "N", arguments := [("v", .integer n)] }] }

theorem Declaration.isWritable_notedMethod (n : Int) : (notedMethod n).isWritable = Numeral.isWritable n := by
  change (true && (Numeral.isWritable n && true && true)) = Numeral.isWritable n
  rw [Bool.true_and, Bool.and_true, Bool.and_true]

/-- A method gives no fact to the scope if the integer has too many digits. -/
theorem visitMember_oversized_gives_nothing :
    let method := Declaration.notedMethod Numeral.writableBound
    (method.isProper = true ∧ method.hasTextDocs = true) ∧
      ∀ docs before, ((Form.visitMember docs (.text "p") method.asForm).run.run before).2.scope = before.scope := by
  intro method
  have proper : ∀ n, (Declaration.notedMethod n).isProper = true := fun _ => rfl
  have text : ∀ n, (Declaration.notedMethod n).hasTextDocs = true := fun _ => rfl
  refine ⟨⟨proper _, text _⟩, fun docs before => ?_⟩
  have ends : (visitMember docs "p" method).isOk = false := by
    rw [isOk_visitMember docs "p" _ (text _), ← Numeral.not_isWritable_writableBound]
    exact Declaration.isWritable_notedMethod _
  rw [follows_visitMember docs "p" (proper _) (text _) before]
  cases ended : (visitMember docs "p" method).result with
  | ok m =>
    rw [Walk.isOk_iff.2 ⟨m, ended⟩] at ends
    cases ends
  | error e => exact List.append_nil before.scope

end ProgramFacts
