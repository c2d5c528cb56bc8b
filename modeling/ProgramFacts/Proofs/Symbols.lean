import ProgramFacts.Proofs.Tallies

/-!
# What becomes of symbols

The symbols that a walk comes to are the direct members of packages and the members of the types of known shape among
them, at any depth. Each of them has one fate: it is a type, a method, a constructor or a field, it is left out with a
warning, or it is left to the scope that declares it. A walk that comes to its end has counted the symbols by their
fates, and besides them only scopes, and directives that are none.
-/

namespace ProgramFacts

/-! ## Symbols and their fates -/

/-- A declaration that a walk comes to, with the type that it is a direct member of. -/
structure Symbol where
  /-- None for a direct member of a package. -/
  owner : Option TypeHead
  declaration : Declaration

/-- What becomes of a symbol. -/
inductive Fate
  | type
  | method
  | constructor
  | field
  /-- Left out with a warning. -/
  | skipped
  /-- Left to the scope that declares it. -/
  | ignored
deriving DecidableEq

namespace Fate

def tally : Fate → Tally
  | .type => { types := 1 }
  | .method => { methods := 1 }
  | .constructor => { constructors := 1 }
  | .field => { fields := 1 }
  | .skipped => { skipped := 1 }
  | .ignored => {}

end Fate

namespace Declaration

def fateInType : Declaration → Fate
  | .ofType t _ => if t.isKnown then .type else .skipped
  | .ofExecutable e =>
    if e.kind = "METHOD" then .method
    else if e.kind = "CONSTRUCTOR" then .constructor
    else .skipped
  | .ofVariable v =>
    if v.kind ∈ ignoredVariableKinds then .ignored
    else if v.kind = "FIELD" then .field
    else .skipped
  | .stray _ => .skipped

/-- Only types belong in a package. -/
def fateInPackage : Declaration → Fate
  | .ofType t _ => if t.isKnown then .type else .skipped
  | .ofExecutable _ => .skipped
  | .ofVariable _ => .skipped
  | .stray _ => .skipped

mutual

/-- The symbols that a walk comes to within a declaration. -/
def inner : Declaration → List Symbol
  | .ofType t ds => if t.isKnown then innerAll ds ++ ds.map (⟨some t, ·⟩) else []
  | .ofExecutable _ | .ofVariable _ | .stray _ => []

def innerAll : List Declaration → List Symbol
  | [] => []
  | d :: ds => d.inner ++ innerAll ds

end

end Declaration

namespace Symbol

def fate (s : Symbol) : Fate :=
  match s.owner with
  | none => s.declaration.fateInPackage
  | some _ => s.declaration.fateInType

/-- How many of the symbols have the fate. -/
def count (f : Fate) (ss : List Symbol) : Nat := ss.countP (·.fate = f)

/-- What is counted for the symbols. -/
def total (ss : List Symbol) : Tally := (ss.map (·.fate.tally)).sum

theorem total_append (a b : List Symbol) : total (a ++ b) = total a + total b := by
  rw [total, List.map_append, List.sum_append, total, total]

/-- Each symbol is counted for its fate and for no other. -/
theorem total_eq (ss : List Symbol) :
    total ss =
      { types := count .type ss, methods := count .method ss, constructors := count .constructor ss
        fields := count .field ss, skipped := count .skipped ss } := by
  induction ss with
  | nil => rfl
  | cons s ss ih =>
    rw [total, List.map_cons, List.sum_cons, ← total, ih]
    have counts : ∀ f, count f (s :: ss) = (if s.fate = f then 1 else 0) + count f ss := by
      intro f
      rw [count, count, List.countP_cons, Nat.add_comm]
      simp
    simp only [counts]
    cases s.fate <;> simp [Fate.tally, Tally.mk_add_mk]

/-- No symbol is without a fate, and none has two. -/
theorem length_eq_count (ss : List Symbol) :
    ss.length = count .type ss + count .method ss + count .constructor ss + count .field ss + count .skipped ss +
      count .ignored ss := by
  induction ss with
  | nil => rfl
  | cons s ss ih =>
    simp only [count, List.countP_cons, List.length_cons] at ih ⊢
    cases s.fate <;> simp <;> omega

end Symbol

/-! ## What visits count -/

open Walk (tallies_pure tallies_count tallies_noted tallies_result)

theorem Executable.visit_tallies (docs : Bool) (e : Executable) :
    (e.visit docs).Tallies (Declaration.ofExecutable e).fateInType.tally := by
  rw [Executable.visit, Declaration.fateInType]
  by_cases method : e.kind = "METHOD"
  · rw [if_pos method, if_pos method]
    repeat refine tallies_noted fun _ => ?_
    exact tallies_result fun _ => (tallies_count _).before fun _ => tallies_pure _
  · rw [if_neg method, if_neg method]
    by_cases constructor : e.kind = "CONSTRUCTOR"
    · rw [if_pos constructor, if_pos constructor]
      repeat refine tallies_noted fun _ => ?_
      exact tallies_result fun _ => (tallies_count _).before fun _ => tallies_pure _
    · rw [if_neg constructor, if_neg constructor]
      exact fun _ => rfl

theorem Variable.visit_tallies (docs : Bool) (v : Variable) :
    (v.visit docs).Tallies (Declaration.ofVariable v).fateInType.tally := by
  rw [Variable.visit, Declaration.fateInType]
  by_cases ignored : v.kind ∈ ignoredVariableKinds
  · rw [if_pos ignored, if_pos ignored]
    exact tallies_pure none
  · rw [if_neg ignored, if_neg ignored]
    by_cases field : v.kind = "FIELD"
    · rw [if_pos field, if_pos field]
      repeat refine tallies_noted fun _ => ?_
      exact tallies_result fun _ => (tallies_count _).before fun _ => tallies_pure _
    · rw [if_neg field, if_neg field]
      exact fun _ => rfl

theorem TypeHead.fact_tallies (docs : Bool) (package : String) (t : TypeHead) (ms : List Term) (shape : TypeShape) :
    (t.fact docs package ms shape).Tallies 0 := by
  cases shape
  all_goals
    repeat refine tallies_noted fun _ => ?_
    exact tallies_result fun _ => tallies_pure _

/-- The symbols that the members of a type are, whichever type it is. -/
theorem Symbol.total_members (t : TypeHead) (ds : List Declaration) :
    Symbol.total (ds.map (⟨some t, ·⟩)) = (ds.map (·.fateInType.tally)).sum := by
  rw [Symbol.total, List.map_map]
  rfl

/-- A type counts as one, besides what its members count for. -/
theorem TypeHead.visitWith_tallies (docs : Bool) (package : String) (t : TypeHead) {ds : List Declaration}
    {members : Walk (List Term)}
    (inside : members.Tallies ((ds.map (·.fateInType.tally)).sum + Symbol.total (Declaration.innerAll ds))) :
    (t.visitWith docs package members).Tallies
      ((Declaration.ofType t ds).fateInType.tally + Symbol.total (Declaration.ofType t ds).inner) := by
  rw [TypeHead.visitWith, Declaration.fateInType, Declaration.inner, TypeHead.isKnown]
  cases TypeShape.ofKind? t.kind with
  | none => exact fun _ => rfl
  | some shape =>
    have own : ∀ f : Term, (Walk.write (.type package t.name) f >>= fun _ =>
        Walk.count { types := 1 } >>= fun _ => (pure (some f) : Walk (Option Term))).Tallies Fate.type.tally :=
      fun _ _ => rfl
    have whole := inside.bind fun ms => (t.fact_tallies docs package ms shape).after own
    have sums : (ds.map (·.fateInType.tally)).sum + Symbol.total (Declaration.innerAll ds) + Fate.type.tally =
        Fate.type.tally + Symbol.total (Declaration.innerAll ds ++ ds.map (⟨some t, ·⟩)) := by
      rw [Symbol.total_append, Symbol.total_members, add_comm (ds.map _).sum, add_comm]
    rw [sums] at whole
    exact whole

mutual

theorem visitMember_tallies (docs : Bool) (package : String) :
    ∀ d : Declaration, (visitMember docs package d).Tallies (d.fateInType.tally + Symbol.total d.inner)
  | .ofType t ds => by
    rw [visitMember]
    exact (t.visitWith_tallies docs package (visitMembers_tallies docs package ds)).before fun _ => tallies_pure _
  | .ofExecutable e => by
    rw [visitMember]
    exact e.visit_tallies docs
  | .ofVariable v => by
    rw [visitMember]
    exact v.visit_tallies docs
  | .stray f => by
    rw [visitMember]
    exact tallies_result fun _ _ => rfl

theorem visitMembers_tallies (docs : Bool) (package : String) :
    ∀ ds : List Declaration, (visitMembers docs package ds).Tallies
      ((ds.map (·.fateInType.tally)).sum + Symbol.total (Declaration.innerAll ds))
  | [] => by
    rw [visitMembers]
    exact tallies_pure []
  | d :: ds => by
    rw [visitMembers, List.map_cons, List.sum_cons, Declaration.innerAll, Symbol.total_append, add_add_add_comm]
    refine (visitMember_tallies docs package d).bind fun _ => ?_
    exact (visitMembers_tallies docs package ds).before fun _ => tallies_pure _

end

theorem visitPackageMembers_tallies (docs : Bool) (package : String) (ds : List Declaration) :
    (visitPackageMembers docs package ds).Tallies
      ((ds.map (·.fateInPackage.tally)).sum + Symbol.total (Declaration.innerAll ds)) := by
  induction ds with
  | nil => exact tallies_pure []
  | cons d ds ih =>
    have first : (visitPackageMember docs package d).Tallies (d.fateInPackage.tally + Symbol.total d.inner) := by
      cases d with
      | ofType t members =>
        rw [visitPackageMember_ofType]
        exact visitMember_tallies docs package (.ofType t members)
      | ofExecutable e => exact fun _ => rfl
      | ofVariable v => exact fun _ => rfl
      | stray f => exact tallies_result fun _ _ => rfl
    rw [List.map_cons, List.sum_cons, Declaration.innerAll, Symbol.total_append, add_add_add_comm]
    exact first.bind fun _ => ih.before fun _ => tallies_pure _

/-! ## Programs -/

/-- Whether a directive is none of those that there are. -/
def Directive.isStray : Directive → Bool
  | .stray _ => true
  | _ => false

def Package.symbols (p : Package) : List Symbol := p.members.map (⟨none, ·⟩) ++ Declaration.innerAll p.members

namespace Program

/-- The symbols that a walk over the program comes to. -/
def symbols (p : Program) : List Symbol := p.packages.flatMap Package.symbols

/-- The number of directives that are none of those that there are. -/
def strayDirectives (p : Program) : Nat := (p.modules.map fun m => m.directives.countP Directive.isStray).sum

end Program

theorem Directive.visit_tallies (moduleName : String) (d : Directive) :
    (d.visit moduleName).Tallies { skipped := if d.isStray then 1 else 0 } := by
  cases d with
  | requires m ms as =>
    rw [Directive.visit]
    by_cases implied : isImpliedRequirement m ms = true
    · rw [if_pos implied]
      exact tallies_pure none
    · rw [if_neg implied]
      exact tallies_noted fun _ => tallies_pure _
  | exports p ts as => exact tallies_noted fun _ => tallies_pure _
  | uses t => exact tallies_noted fun _ => tallies_pure _
  | provides t ts as => exact tallies_noted fun _ => tallies_noted fun _ => tallies_noted fun _ => tallies_pure _
  | stray f => exact tallies_result fun _ _ => rfl

theorem Directive.visitList_tallies (moduleName : String) (ds : List Directive) :
    (Directive.visitList moduleName ds).Tallies { skipped := ds.countP Directive.isStray } := by
  induction ds with
  | nil => exact tallies_pure []
  | cons d ds ih =>
    have sums : ({ skipped := (d :: ds).countP Directive.isStray } : Tally) =
        { skipped := if d.isStray then 1 else 0 } + { skipped := ds.countP Directive.isStray } := by
      rw [Tally.mk_add_mk, List.countP_cons, Nat.add_comm]
    rw [Directive.visitList, sums]
    exact (Directive.visit_tallies moduleName d).bind fun _ => ih.before fun _ => tallies_pure _

def Scope.tally : Scope → Tally
  | .module m => { modules := 1, skipped := m.directives.countP Directive.isStray }
  | .package p => { packages := 1 } + Symbol.total p.symbols

theorem Scope.visit_tallies (docs : Bool) (s : Scope) : (s.visit docs).Tallies s.tally := by
  cases s with
  | module m =>
    have own : ∀ f : Term, (Walk.write (.module m.name) f >>= fun _ =>
        Walk.count { modules := 1 } >>= fun _ => (pure f : Walk Term)).Tallies { modules := 1 } := fun _ _ => rfl
    have sums : ({ skipped := m.directives.countP Directive.isStray } : Tally) + { modules := 1 } =
        (Scope.module m).tally := by
      simp only [Tally.mk_add_mk, Nat.zero_add, Nat.add_zero, Scope.tally]
    rw [← sums]
    exact (Directive.visitList_tallies m.name m.directives).bind fun ds => own _
  | package p =>
    have own : ∀ f : Term, (Walk.write (.package p.name) f >>= fun _ =>
        Walk.count { packages := 1 } >>= fun _ => (pure f : Walk Term)).Tallies { packages := 1 } := fun _ _ => rfl
    have direct : Symbol.total (p.members.map (⟨none, ·⟩)) = (p.members.map (·.fateInPackage.tally)).sum := by
      rw [Symbol.total, List.map_map]
      rfl
    have members := visitPackageMembers_tallies docs p.name p.members
    rw [← direct, ← Symbol.total_append] at members
    rw [Scope.tally, add_comm]
    exact members.bind fun ms => own _

theorem walkScopes_tallies (docs : Bool) (ss : List Scope) (i : Index) :
    (walkScopes docs i ss).Tallies (ss.map Scope.tally).sum := by
  induction ss generalizing i with
  | nil => exact tallies_pure i
  | cons s ss ih =>
    rw [List.map_cons, List.sum_cons]
    exact (s.visit_tallies docs).bind fun _ => ih _

theorem sum_tally_modules (ms : List Module) :
    (ms.map fun m => Scope.tally (.module m)).sum =
      { modules := ms.length, skipped := (ms.map fun m => m.directives.countP Directive.isStray).sum } := by
  induction ms with
  | nil => rfl
  | cons m ms ih =>
    rw [List.map_cons, List.sum_cons, ih, Scope.tally, Tally.mk_add_mk, List.map_cons, List.sum_cons,
      List.length_cons, Nat.add_comm 1]

theorem sum_tally_packages (ps : List Package) :
    (ps.map fun p => Scope.tally (.package p)).sum =
      { packages := ps.length } + Symbol.total (ps.flatMap Package.symbols) := by
  induction ps with
  | nil => rfl
  | cons p ps ih =>
    have one : ({ packages := 1 } + { packages := ps.length } : Tally) = { packages := ps.length + 1 } := by
      rw [Tally.mk_add_mk, Nat.add_comm 1]
    rw [List.map_cons, List.sum_cons, ih, Scope.tally, List.flatMap_cons, Symbol.total_append, add_add_add_comm, one,
      List.length_cons]

/-- What a walk over a program counts if it comes to its end: scopes, and symbols by their fates. -/
theorem Program.walk_tallies (docs : Bool) (p : Program) :
    (p.walk docs).Tallies
      { modules := p.modules.length
        packages := p.packages.length
        types := Symbol.count .type p.symbols
        methods := Symbol.count .method p.symbols
        constructors := Symbol.count .constructor p.symbols
        fields := Symbol.count .field p.symbols
        skipped := p.strayDirectives + Symbol.count .skipped p.symbols } := by
  have walked := walkScopes_tallies docs p.scopes {}
  have modules := sum_tally_modules p.modules
  have packages := sum_tally_packages p.packages
  have symbols := Symbol.total_eq p.symbols
  rw [Program.scopes, List.map_append, List.sum_append, List.map_map, List.map_map] at walked
  change (p.walk docs).Tallies ((p.modules.map fun m => Scope.tally (.module m)).sum +
    (p.packages.map fun q => Scope.tally (.package q)).sum) at walked
  rw [Program.symbols] at symbols
  rw [modules, packages, symbols] at walked
  simp only [Tally.mk_add_mk, Nat.zero_add, Nat.add_zero] at walked
  exact walked

end ProgramFacts
