import ProgramFacts.Proofs.ScopeIsolation
import ProgramFacts.Proofs.Symbols

/-!
# No symbol is lost

A walk that comes to its end has counted every symbol that it came to, but for the variables that other scopes account
for, and has written what it counted: a fact for each type, and for each method, constructor and field an entry in the
member list of its type. Only the facts of annotation types have no member list.
-/

namespace ProgramFacts

/-! ## Member lists -/

/-- The name of the facts that member lists hold for symbols with the fate. -/
def Fate.functor? : Fate → Option String
  | .type => some "type_declaration"
  | .method => some "method"
  | .constructor => some "constructor"
  | .field => some "field"
  | .skipped => none
  | .ignored => none

/-- How many facts with a name the member list of a fact holds. -/
def Term.listed (name : String) (fact : Term) : Nat := (fact.memberList?.getD []).countP (·.functor = name)

/-- How many facts with a name the member lists of all written facts hold. -/
def Walk.listed {α : Type} (name : String) (w : Walk α) : Nat := (w.writes.map fun call => call.2.listed name).sum

theorem Fate.eq_of_functor? {f g : Fate} {name : String} (hf : f.functor? = some name) (hg : g.functor? = some name) :
    f = g := by
  cases f <;> cases hf <;> cases g <;> simp [Fate.functor?] at hg ⊢

/-- A member contributes a fact with the name that belongs to its fate. -/
theorem Declaration.Contributes.functor {d : Declaration} {m : Option Term} (h : d.Contributes m) :
    m.map Term.functor = d.fateInType.functor? := by
  cases d with
  | ofType t ds =>
    rw [Declaration.Contributes] at h
    rw [h, Declaration.fateInType]
    split <;> rfl
  | ofExecutable e =>
    rw [Declaration.Contributes] at h
    rw [Declaration.fateInType]
    split at h
    · next method =>
      obtain ⟨parts, rfl⟩ := h
      rw [if_pos method]
      rfl
    · next other =>
      rw [if_neg other]
      split at h
      · next constructor =>
        obtain ⟨parts, rfl⟩ := h
        rw [if_pos constructor]
        rfl
      · next neither =>
        rw [h, if_neg neither]
        rfl
  | ofVariable v =>
    rw [Declaration.Contributes] at h
    rw [Declaration.fateInType]
    split at h
    · next field =>
      obtain ⟨parts, rfl⟩ := h
      rw [if_neg fun ignored => Variable.kind_ne_field ignored field, if_pos field]
      rfl
    · next other =>
      rw [h, if_neg other]
      split <;> rfl
  | stray g =>
    rw [Declaration.Contributes] at h
    rw [h]
    rfl

theorem Declaration.Contributes.count {d : Declaration} {m : Option Term} (h : d.Contributes m) {f : Fate}
    {name : String} (named : f.functor? = some name) :
    m.toList.countP (·.functor = name) = if d.fateInType = f then 1 else 0 := by
  have functor := h.functor
  by_cases same : d.fateInType = f
  · rw [same, named] at functor
    obtain ⟨t, rfl, called⟩ := Option.map_eq_some_iff.1 functor
    simp [same, called]
  · rw [if_neg same]
    refine List.countP_eq_zero.2 fun t member => ?_
    obtain rfl := Option.mem_toList.1 member
    intro called
    rw [Option.map_some, of_decide_eq_true called] at functor
    exact same (Fate.eq_of_functor? functor.symm named)

/-- The members of a type list as many facts with a name as there are members with the fate. -/
theorem count_visitMembers {docs : Bool} {package : String} {f : Fate} {name : String}
    (named : f.functor? = some name) (ds : List Declaration) :
    (visitMembers docs package ds).Ends fun ms => ms.countP (·.functor = name) = ds.countP (·.fateInType = f) := by
  induction ds with
  | nil =>
    rw [visitMembers]
    exact Walk.ends_pure rfl
  | cons d ds ih =>
    rw [visitMembers]
    refine Walk.ends_bind fun m first => Walk.ends_bind fun ms others => Walk.ends_pure ?_
    have here := (visitMember_contributes docs package d m first).count named
    rw [List.countP_append, here, ih ms others, List.countP_cons, Nat.add_comm]
    simp

/-! ## The facts of subjects -/

/-- How many members with a fate the fact of a subject lists. -/
def Subject.listed (f : Fate) : Subject → Nat
  | .type _ t ds => if t.kind = "ANNOTATION_TYPE" then 0 else ds.countP (·.fateInType = f)
  | .module _ => 0
  | .package _ => 0

theorem TypeHead.fact_unlisted (docs : Bool) (package : String) (t : TypeHead) (ms : List Term) :
    (t.fact docs package ms .annotationType).Ends fun f => f.memberList? = none :=
  Walk.ends_bind fun _ _ => Walk.ends_bind fun _ _ => Walk.ends_pure rfl

theorem Subject.listed_of_hasFact {docs : Bool} {s : Subject} {fact : Term} (h : s.HasFact docs fact) {f : Fate}
    {name : String} (named : f.functor? = some name) : fact.listed name = s.listed f := by
  cases s with
  | module m =>
    have unlisted : m.visit.Ends fun f => f.memberList? = none := by
      rw [Module.visit]
      exact Walk.ends_bind fun _ _ => Walk.ends_bind fun _ _ => Walk.ends_bind fun _ _ => Walk.ends_pure rfl
    rw [Term.listed, unlisted fact h]
    rfl
  | package p =>
    have unlisted : (p.visit docs).Ends fun f => f.memberList? = none := by
      rw [Package.visit]
      exact Walk.ends_bind fun _ _ => Walk.ends_bind fun _ _ => Walk.ends_bind fun _ _ => Walk.ends_pure rfl
    rw [Term.listed, unlisted fact h]
    rfl
  | type package t ds =>
    rcases TypeHead.visitWith_eq_ok h with ⟨-, impossible⟩ | ⟨shape, ms, g, known, walked, built, same⟩
    · cases impossible
    · cases same
      rw [Term.listed, Subject.listed]
      by_cases noted : t.kind = "ANNOTATION_TYPE"
      · rw [noted] at known
        cases known
        rw [if_pos noted, t.fact_unlisted docs package ms fact built]
        rfl
      · have other : shape ≠ .annotationType := by
          rintro rfl
          exact noted (TypeShape.ofKind?_annotationType known)
        rw [if_neg noted, t.fact_memberList docs package ms other fact built]
        exact count_visitMembers named ds ms walked

theorem Subject.sum_listed {docs : Bool} {ss : List Subject} {calls : List (Key × Term)}
    (wrote : List.Forall₂ (Subject.WrittenAs docs) ss calls) {f : Fate} {name : String}
    (named : f.functor? = some name) :
    (calls.map fun call => call.2.listed name).sum = (ss.map (·.listed f)).sum := by
  induction wrote with
  | nil => rfl
  | cons here _ ih => rw [List.map_cons, List.sum_cons, ih, Subject.listed_of_hasFact here.2 named, List.map_cons,
      List.sum_cons]

/-! ## The symbols of subjects -/

/-- Whether the symbol is a direct member of an annotation type. -/
def Symbol.isInAnnotationType (s : Symbol) : Bool := s.owner.any (·.kind = "ANNOTATION_TYPE")

/-- How many direct members of annotation types have the fate. -/
def Symbol.countUnlisted (f : Fate) (ss : List Symbol) : Nat :=
  ss.countP fun s => s.fate = f && s.isInAnnotationType

theorem Symbol.countUnlisted_append (f : Fate) (a b : List Symbol) :
    Symbol.countUnlisted f (a ++ b) = Symbol.countUnlisted f a + Symbol.countUnlisted f b :=
  List.countP_append

theorem Symbol.count_append (f : Fate) (a b : List Symbol) :
    Symbol.count f (a ++ b) = Symbol.count f a + Symbol.count f b :=
  List.countP_append

/-- The members of one type: its fact lists them, unless it is an annotation type. -/
theorem Subject.listed_type (f : Fate) (package : String) (t : TypeHead) (ds : List Declaration) :
    (Subject.type package t ds).listed f + Symbol.countUnlisted f (ds.map (⟨some t, ·⟩)) =
      Symbol.count f (ds.map (⟨some t, ·⟩)) := by
  rw [Subject.listed]
  by_cases annotation : t.kind = "ANNOTATION_TYPE"
  · have all : Symbol.countUnlisted f (ds.map (⟨some t, ·⟩)) = Symbol.count f (ds.map (⟨some t, ·⟩)) := by
      refine List.countP_congr fun s member => ?_
      obtain ⟨d, -, rfl⟩ := List.mem_map.1 member
      simp [Symbol.isInAnnotationType, annotation]
    rw [if_pos annotation, Nat.zero_add, all]
  · have none : Symbol.countUnlisted f (ds.map (⟨some t, ·⟩)) = 0 := by
      refine List.countP_eq_zero.2 fun s member => ?_
      obtain ⟨d, -, rfl⟩ := List.mem_map.1 member
      simp [Symbol.isInAnnotationType, annotation]
    rw [if_neg annotation, none, Nat.add_zero, Symbol.count, List.countP_map]
    rfl

mutual

theorem Declaration.listed_inner (f : Fate) (package : String) : ∀ d : Declaration,
    ((typeSubjects package d.types).map (·.listed f)).sum + Symbol.countUnlisted f d.inner = Symbol.count f d.inner
  | .ofType t ds => by
    rw [Declaration.types, Declaration.inner]
    split
    · have within := Declaration.listed_innerAll f package ds
      have own := Subject.listed_type f package t ds
      rw [typeSubjects_append, List.map_append, List.sum_append, Symbol.countUnlisted_append, Symbol.count_append]
      simp only [typeSubjects, List.map_cons, List.map_nil, List.sum_cons, List.sum_nil] at within own ⊢
      omega
    · rfl
  | .ofExecutable _ => rfl
  | .ofVariable _ => rfl
  | .stray _ => rfl

/-- The facts of the types in some members list what is in them, but for the members of annotation types. -/
theorem Declaration.listed_innerAll (f : Fate) (package : String) : ∀ ds : List Declaration,
    ((typeSubjects package (Declaration.typesIn ds)).map (·.listed f)).sum +
      Symbol.countUnlisted f (Declaration.innerAll ds) = Symbol.count f (Declaration.innerAll ds)
  | [] => rfl
  | d :: ds => by
    have first := Declaration.listed_inner f package d
    have others := Declaration.listed_innerAll f package ds
    rw [Declaration.typesIn, Declaration.innerAll, typeSubjects_append, List.map_append, List.sum_append,
      Symbol.countUnlisted_append, Symbol.count_append]
    omega

end

theorem Package.listed_symbols {f : Fate} (notType : f ≠ .type) (notSkipped : f ≠ .skipped) (p : Package) :
    (p.subjects.map (·.listed f)).sum + Symbol.countUnlisted f p.symbols = Symbol.count f p.symbols := by
  have within := Declaration.listed_innerAll f p.name p.members
  have direct : Symbol.count f (p.members.map (⟨none, ·⟩)) = 0 := by
    refine List.countP_eq_zero.2 fun s member counted => ?_
    obtain ⟨d, -, rfl⟩ := List.mem_map.1 member
    have fate : d.fateInPackage = f := of_decide_eq_true counted
    cases d with
    | ofType t ds =>
      rw [Declaration.fateInPackage] at fate
      split at fate
      · exact notType fate.symm
      · exact notSkipped fate.symm
    | ofExecutable e => exact notSkipped fate.symm
    | ofVariable v => exact notSkipped fate.symm
    | stray g => exact notSkipped fate.symm
  have unowned : Symbol.countUnlisted f (p.members.map (⟨none, ·⟩)) = 0 := by
    refine List.countP_eq_zero.2 fun s member => ?_
    obtain ⟨d, -, rfl⟩ := List.mem_map.1 member
    simp [Symbol.isInAnnotationType]
  have own : (Subject.package p).listed f = 0 := rfl
  rw [Package.subjects, Package.symbols, List.map_append, List.sum_append, Symbol.countUnlisted_append,
    Symbol.count_append]
  simp only [List.map_cons, List.map_nil, List.sum_cons, List.sum_nil]
  omega

theorem Program.listed_symbols {f : Fate} (notType : f ≠ .type) (notSkipped : f ≠ .skipped) (p : Program) :
    (p.subjects.map (·.listed f)).sum + Symbol.countUnlisted f p.symbols = Symbol.count f p.symbols := by
  have modules : ((p.modules.map Subject.module).map (·.listed f)).sum = 0 := by
    rw [List.map_map]
    exact List.sum_eq_zero fun n member => by
      obtain ⟨m, -, rfl⟩ := List.mem_map.1 member
      rfl
  have packages : ∀ ps : List Package, ((ps.flatMap Package.subjects).map (·.listed f)).sum +
      Symbol.countUnlisted f (ps.flatMap Package.symbols) = Symbol.count f (ps.flatMap Package.symbols) := by
    intro ps
    induction ps with
    | nil => rfl
    | cons q ps ih =>
      have here := q.listed_symbols notType notSkipped
      rw [List.flatMap_cons, List.flatMap_cons, List.map_append, List.sum_append, Symbol.countUnlisted_append,
        Symbol.count_append]
      omega
  rw [Program.subjects, List.map_append, List.sum_append, modules, Nat.zero_add]
  exact packages p.packages

/-- The member lists in the facts of a walk that comes to its end hold all symbols with the fate, but for those in
annotation types. -/
theorem Program.listed_walk {docs : Bool} {p : Program} (ok : (p.walk docs).isOk = true) {f : Fate} {name : String}
    (named : f.functor? = some name) (notType : f ≠ .type) :
    (p.walk docs).listed name + Symbol.countUnlisted f p.symbols = Symbol.count f p.symbols := by
  have notSkipped : f ≠ .skipped := by
    rintro rfl
    cases named
  obtain ⟨done, rest, split, wrote, whole, -⟩ := Program.walk_answers docs p
  obtain rfl := whole ok
  rw [List.append_nil] at split
  rw [Walk.listed, Subject.sum_listed wrote named, ← split]
  exact p.listed_symbols notType notSkipped

/-! ## The balance of a walk -/

/-- What the counts of a walk over a program come to. -/
structure Walk.Conserves (p : Program) (w : Walk Index) : Prop where
  modules : w.tally.modules = p.modules.length
  packages : w.tally.packages = p.packages.length
  /-- As many types are counted as written. -/
  written : w.tally.types = w.writes.countP (·.1.isType)
  types : w.tally.types = Symbol.count .type p.symbols
  methods : w.tally.methods = Symbol.count .method p.symbols
  constructors : w.tally.constructors = Symbol.count .constructor p.symbols
  fields : w.tally.fields = Symbol.count .field p.symbols
  skipped : w.tally.skipped = p.strayDirectives + Symbol.count .skipped p.symbols
  /-- Nothing is lost: all symbols and directives that are none are accounted for. -/
  symbols : w.tally.types + w.tally.methods + w.tally.constructors + w.tally.fields + w.tally.skipped +
    Symbol.count .ignored p.symbols = p.symbols.length + p.strayDirectives
  warned : w.warnings.countP Warning.isSkip = w.tally.skipped
  listedMethods : w.listed "method" + Symbol.countUnlisted .method p.symbols = w.tally.methods
  listedConstructors : w.listed "constructor" + Symbol.countUnlisted .constructor p.symbols = w.tally.constructors
  listedFields : w.listed "field" + Symbol.countUnlisted .field p.symbols = w.tally.fields

/-- **No symbol is lost.** Where all documentation is absent or a text, a walk comes to its end if and only if every
integer that its facts show can be written. Then its counts are those of the symbols of the program by their fates, and
its writes, warnings and member lists agree with them. -/
theorem Program.walk_conserves_symbols {p : Program} (text : p.hasTextDocs = true) (docs : Bool) :
    (p.walk docs).isOk = p.isWritable ∧ (p.isWritable = true → (p.walk docs).Conserves p) := by
  have ends := Program.isOk_walk text docs
  refine ⟨ends, fun writable => ?_⟩
  rw [← ends] at writable
  have balanced := p.walk_balanced docs
  have tally := p.walk_tallies docs writable
  have length := Symbol.length_eq_count p.symbols
  have methods := Program.listed_walk writable (f := .method) rfl (by decide)
  have constructors := Program.listed_walk writable (f := .constructor) rfl (by decide)
  have fields := Program.listed_walk writable (f := .field) rfl (by decide)
  constructor
  case written => exact balanced.types.symm
  case warned => exact balanced.skipped
  case symbols =>
    rw [tally]
    dsimp only
    omega
  case listedMethods => rw [methods, tally]
  case listedConstructors => rw [constructors, tally]
  case listedFields => rw [fields, tally]
  all_goals rw [tally]

/-- Symbols with every fate but a constructor's and a field's, among them a method of an annotation type, and a
directive that is none. -/
def Program.mixedSample : Program :=
  { modules := [{ name := "m", directives := [.stray (.text "opens")] }]
    packages := [{
      name := "p"
      members := [
        .ofType { kind := "CLASS", name := "A", doc := .scalar (.text "Outer.") }
          [.ofExecutable { kind := "METHOD", name := "run" },
            .ofExecutable { kind := "STATIC_INIT", name := "" },
            .ofVariable { kind := "ENUM_CONSTANT", name := "ONE", type := .primitive "int" },
            .ofType { kind := "ANNOTATION_TYPE", name := "N" } [.ofExecutable { kind := "METHOD", name := "value" }],
            .ofType { kind := "OTHER", name := "B" }
              [.ofVariable { kind := "FIELD", name := "x", type := .primitive "int" }]],
        .ofVariable { kind := "FIELD", name := "y", type := .primitive "int" }] }] }

theorem Program.walk_conserves_symbols_mixed :
    (Program.mixedSample.hasTextDocs = true ∧ Program.mixedSample.isWritable = true) ∧
      Program.mixedSample.symbols.length = 8 ∧ (Program.mixedSample.walk true).tally.skipped = 4 ∧
      (Program.mixedSample.walk true).tally.methods = 2 ∧ (Program.mixedSample.walk true).listed "method" = 1 := by
  have text : Program.mixedSample.hasTextDocs = true := by decide
  have writable : Program.mixedSample.isWritable = true := by decide
  have conserved := (Program.walk_conserves_symbols text true).2 writable
  have methods : (Program.mixedSample.walk true).tally.methods = 2 := conserved.methods
  have listed := conserved.listedMethods
  have unlisted : Symbol.countUnlisted .method Program.mixedSample.symbols = 1 := rfl
  refine ⟨⟨text, writable⟩, rfl, conserved.skipped, methods, ?_⟩
  omega

/-- The walk of a class with an integer of too many digits ends before its package is counted. -/
theorem Program.walk_oversized_miscounts :
    (Program.notedSample Numeral.writableBound).hasTextDocs = true ∧
      (Program.notedSample Numeral.writableBound).packages.length = 1 ∧
      ∀ docs, ((Program.notedSample Numeral.writableBound).walk docs).isOk = false ∧
        ((Program.notedSample Numeral.writableBound).walk docs).tally.packages = 0 := by
  have text : ∀ n, (Program.notedSample n).hasTextDocs = true := fun _ => rfl
  refine ⟨text _, rfl, fun docs => ?_⟩
  have ends : ((Program.notedSample Numeral.writableBound).walk docs).isOk = false := by
    rw [Program.isOk_walk (text _), Program.isWritable_notedSample, Numeral.not_isWritable_writableBound]
  obtain ⟨done, rest, split, wrote, -, only⟩ := Program.walk_answers docs (Program.notedSample Numeral.writableBound)
  refine ⟨ends, ?_⟩
  rw [← (Program.walk_balanced docs _).packages]
  have two : ∀ n, (Program.notedSample n).subjects.length = 2 := fun _ => rfl
  generalize ((Program.notedSample Numeral.writableBound).walk docs).writes = calls at wrote ⊢
  -- the package is the last of two subjects, so it is written only if nothing is left
  cases wrote with
  | nil => rfl
  | cons type others =>
    cases others with
    | nil =>
      obtain ⟨same, -⟩ := List.cons.inj split
      rw [← same] at type
      rw [List.countP_cons, List.countP_nil, type.1]
      rfl
    | cons package others =>
      have nothing : rest = [] := by
        have lengths := congrArg List.length split
        rw [two, List.length_append, List.length_cons, List.length_cons] at lengths
        exact List.eq_nil_of_length_eq_zero (by omega)
      rw [only rfl nothing] at ends
      cases ends

end ProgramFacts
