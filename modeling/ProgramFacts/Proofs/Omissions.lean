import ProgramFacts.Proofs.LoadableModels
import ProgramFacts.Proofs.Symbols

/-!
# What walks leave out

A walk comes to one declaration after the other, those in a type right after the type, and stops at the first part that
has no term. What it has come to is told here (`Program.visited`), and what it leaves out is told by that alone: the
warnings that say so are those of the declarations it has come to, in their order. In a program that was read these are
of three sorts only, and nothing else is left out.
-/

namespace ProgramFacts

/-! ## Warnings of what is left out -/

namespace Walk

variable {α β : Type}

/-- The warnings that say what was left out. -/
def omissions (w : Walk α) : List Warning := w.warnings.filter Warning.isSkip

/-- A second part adds to what was left out if the first one comes to its end. -/
theorem omissions_bind {x : Walk α} {f : α → Walk β} {ws : List Warning} (next : ∀ a, (f a).omissions = ws) :
    (x >>= f).omissions = x.omissions ++ if x.isOk then ws else [] := by
  cases h : x.result with
  | ok a =>
    have ended : x.isOk = true := isOk_iff.2 ⟨a, h⟩
    rw [if_pos ended, omissions, warnings_bind_of_ok h, List.filter_append, ← next a]
    rfl
  | error e =>
    rw [isOk_of_error h, omissions, warnings_bind_of_error h, if_neg Bool.false_ne_true, List.append_nil]
    rfl

/-- A second part that leaves out nothing. -/
theorem omissions_before {x : Walk α} {f : α → Walk β} (next : ∀ a, (f a).omissions = []) :
    (x >>= f).omissions = x.omissions := by
  rw [omissions_bind next, ite_self, List.append_nil]

theorem length_omissions {w : Walk α} (balanced : w.Balanced) : w.omissions.length = w.tally.skipped := by
  rw [omissions, ← List.countP_eq_length_filter, balanced.skipped]

theorem omissions_eq_nil {w : Walk α} (balanced : w.Balanced) (none : w.tally.skipped = 0) : w.omissions = [] := by
  rw [← List.length_eq_zero_iff, length_omissions balanced, none]

theorem skipped_bind {x : Walk α} {f : α → Walk β} (first : x.tally.skipped = 0)
    (next : ∀ a, (f a).tally.skipped = 0) : (x >>= f).tally.skipped = 0 := by
  cases h : x.result with
  | ok a =>
    rw [bind_of_ok h]
    exact Nat.add_eq_zero_iff.2 ⟨first, next a⟩
  | error e =>
    rw [bind_of_error h]
    exact first

/-- Encoding a part counts nothing as left out. -/
theorem skipped_noted {n : Noted α} {f : α → Walk β} (next : ∀ a, (f a).tally.skipped = 0) :
    (ofNoted n >>= f).tally.skipped = 0 := skipped_bind rfl next

theorem skipped_result {r : Except EncodeFault α} {f : α → Walk β} (next : ∀ a, (f a).tally.skipped = 0) :
    (ofResult r >>= f).tally.skipped = 0 := skipped_bind rfl next

/-- What is left out is told if there is a text for it. -/
theorem omissions_message {message : String → Warning} (skips : ∀ shown, (message shown).isSkip = true)
    (text? : Option String) :
    (ofResult (textOrOversized text?) >>= fun shown => skip (message shown) >>= fun _ =>
      (pure none : Walk (Option α))).omissions = (text?.map message).toList := by
  cases text? with
  | none => rfl
  | some shown => exact List.filter_cons_of_pos (skips shown)

end Walk

open Walk (omissions_bind omissions_before omissions_eq_nil omissions_message skipped_noted skipped_result)

/-! ## What a walk comes to -/

/-- A symbol that a walk comes to, in a package. -/
structure Encounter where
  package : String
  symbol : Symbol

namespace Declaration

/-- The warning that leaves out a member of a type, if it is left out. A walk stops at what it cannot show. -/
def omissionInType? (package : String) : Declaration → Option Warning
  | .ofType t _ => if t.isKnown then none else some (.typeKind t.kind (qualify package t.name))
  | .ofExecutable e =>
    if e.kind = "METHOD" then none
    else if e.kind = "CONSTRUCTOR" then none
    else some (.executableKind e.kind e.name)
  | .ofVariable v =>
    if v.kind ∈ ignoredVariableKinds then none
    else if v.kind = "FIELD" then none
    else some (.variableKind v.kind v.name)
  | .stray f => f.shown?.map .member

/-- The warning that leaves out a direct member of a package, if it is left out. -/
def omissionInPackage? (package : String) : Declaration → Option Warning
  | .ofType t ds => (Declaration.ofType t ds).omissionInType? package
  | d => d.kindShown?.map (.packageMember · package)

/-- Walks a member of a type, or of a package if it has no owner. -/
def visitOwned (docs : Bool) (package : String) (owner : Option TypeHead) (d : Declaration) : Walk (Option Term) :=
  match owner with
  | none => visitPackageMember docs package d
  | some _ => visitMember docs package d

mutual

/-- What a walk comes to from a declaration on: itself first, then what is in it. -/
def visited (docs : Bool) (package : String) (owner : Option TypeHead) : Declaration → List Encounter
  | .ofType t ds =>
    ⟨package, owner, .ofType t ds⟩ :: if t.isKnown then visitedAll docs package (some t) ds else []
  | .ofExecutable e => [⟨package, owner, .ofExecutable e⟩]
  | .ofVariable v => [⟨package, owner, .ofVariable v⟩]
  | .stray f => [⟨package, owner, .stray f⟩]

/-- What a walk comes to of members: each of them if the walks of those before it come to their ends. -/
def visitedAll (docs : Bool) (package : String) (owner : Option TypeHead) : List Declaration → List Encounter
  | [] => []
  | d :: ds =>
    d.visited docs package owner ++
      if (d.visitOwned docs package owner).isOk then visitedAll docs package owner ds else []

end

end Declaration

def Encounter.omission? (v : Encounter) : Option Warning :=
  match v.symbol.owner with
  | none => v.symbol.declaration.omissionInPackage? v.package
  | some _ => v.symbol.declaration.omissionInType? v.package

theorem Encounter.omission?_ofType (package : String) (owner : Option TypeHead) (t : TypeHead) (ds : List Declaration) :
    Encounter.omission? ⟨package, owner, .ofType t ds⟩ =
      if t.isKnown then none else some (.typeKind t.kind (qualify package t.name)) := by
  cases owner <;> rfl

namespace Scope

/-- What a walk comes to in a scope. -/
def visited (docs : Bool) : Scope → List Encounter
  | .module _ => []
  | .package p => Declaration.visitedAll docs p.name none p.members

/-- What a walk comes to in scopes, each of them if the walks of those before it come to their ends. -/
def visitedAll (docs : Bool) : List Scope → List Encounter
  | [] => []
  | s :: ss => s.visited docs ++ if (s.visit docs).isOk then visitedAll docs ss else []

end Scope

/-- What the walk over a program comes to, in order. -/
def Program.visited (docs : Bool) (p : Program) : List Encounter := Scope.visitedAll docs p.scopes

/-! ## What is left out of it -/

theorem Executable.omissions_visit (docs : Bool) (package : String) (e : Executable) :
    (e.visit docs).omissions = ((Declaration.ofExecutable e).omissionInType? package).toList := by
  have balanced := e.visit_balanced docs
  rw [Declaration.omissionInType?]
  rw [Executable.visit] at balanced ⊢
  by_cases method : e.kind = "METHOD"
  · rw [if_pos method] at balanced ⊢
    rw [if_pos method]
    refine omissions_eq_nil balanced ?_
    repeat refine skipped_noted fun _ => ?_
    exact skipped_result fun _ => rfl
  · rw [if_neg method] at balanced ⊢
    rw [if_neg method]
    by_cases constructor : e.kind = "CONSTRUCTOR"
    · rw [if_pos constructor] at balanced ⊢
      rw [if_pos constructor]
      refine omissions_eq_nil balanced ?_
      repeat refine skipped_noted fun _ => ?_
      exact skipped_result fun _ => rfl
    · rw [if_neg constructor, if_neg constructor]
      rfl

theorem Variable.omissions_visit (docs : Bool) (package : String) (v : Variable) :
    (v.visit docs).omissions = ((Declaration.ofVariable v).omissionInType? package).toList := by
  have balanced := v.visit_balanced docs
  rw [Declaration.omissionInType?]
  rw [Variable.visit] at balanced ⊢
  by_cases ignored : v.kind ∈ ignoredVariableKinds
  · rw [if_pos ignored, if_pos ignored]
    rfl
  · rw [if_neg ignored] at balanced ⊢
    rw [if_neg ignored]
    by_cases field : v.kind = "FIELD"
    · rw [if_pos field] at balanced ⊢
      rw [if_pos field]
      refine omissions_eq_nil balanced ?_
      repeat refine skipped_noted fun _ => ?_
      exact skipped_result fun _ => rfl
    · rw [if_neg field, if_neg field]
      rfl

theorem TypeHead.omissions_fact (docs : Bool) (package : String) (t : TypeHead) (ms : List Term) (shape : TypeShape) :
    (t.fact docs package ms shape).omissions = [] := by
  refine omissions_eq_nil (t.fact_balanced docs package ms shape) ?_
  cases shape
  all_goals
    repeat refine skipped_noted fun _ => ?_
    exact skipped_result fun _ => rfl

/-- Of a type of a known shape is left out what is left out of its members. -/
theorem TypeHead.omissions_visitWith (docs : Bool) (package : String) (t : TypeHead) (members : Walk (List Term)) :
    (t.visitWith docs package members).omissions =
      if t.isKnown then members.omissions else [.typeKind t.kind (qualify package t.name)] := by
  rw [TypeHead.visitWith, TypeHead.isKnown]
  cases TypeShape.ofKind? t.kind with
  | none => rfl
  | some shape =>
    refine omissions_before fun ms => ?_
    rw [omissions_before fun f => rfl]
    exact t.omissions_fact docs package ms shape

/-- The head of a type is told by its warning, or else what is in it. -/
theorem Declaration.filterMap_visited_ofType (docs : Bool) (package : String) (owner : Option TypeHead) (t : TypeHead)
    (ds : List Declaration) :
    ((Declaration.ofType t ds).visited docs package owner).filterMap Encounter.omission? =
      if t.isKnown then (visitedAll docs package (some t) ds).filterMap Encounter.omission?
      else [.typeKind t.kind (qualify package t.name)] := by
  rw [visited, List.filterMap_cons, Encounter.omission?_ofType]
  cases t.isKnown <;> rfl

mutual

theorem omissions_visitMember (docs : Bool) (package : String) (owner : TypeHead) :
    ∀ d : Declaration,
      (visitMember docs package d).omissions = (d.visited docs package (some owner)).filterMap Encounter.omission?
  | .ofType t ds => by
    rw [visitMember, omissions_before fun _ => rfl, t.omissions_visitWith, Declaration.filterMap_visited_ofType,
      omissions_visitMembers docs package t ds]
  | .ofExecutable e => by
    rw [visitMember, e.omissions_visit docs package, Declaration.visited,
      List.filterMap_eq_flatMap_toList, List.flatMap_singleton]
    rfl
  | .ofVariable v => by
    rw [visitMember, v.omissions_visit docs package, Declaration.visited,
      List.filterMap_eq_flatMap_toList, List.flatMap_singleton]
    rfl
  | .stray f => by
    rw [visitMember, omissions_message fun _ => rfl, Declaration.visited, List.filterMap_eq_flatMap_toList,
      List.flatMap_singleton]
    rfl

theorem omissions_visitMembers (docs : Bool) (package : String) (owner : TypeHead) :
    ∀ ds : List Declaration, (visitMembers docs package ds).omissions =
      (Declaration.visitedAll docs package (some owner) ds).filterMap Encounter.omission?
  | [] => by
    rw [visitMembers, Declaration.visitedAll]
    rfl
  | d :: ds => by
    have later : ∀ m : Option Term, (visitMembers docs package ds >>= fun ms =>
        (pure (m.toList ++ ms) : Walk (List Term))).omissions =
          (Declaration.visitedAll docs package (some owner) ds).filterMap Encounter.omission? := by
      intro m
      rw [omissions_before fun _ => rfl]
      exact omissions_visitMembers docs package owner ds
    rw [visitMembers, omissions_bind later, omissions_visitMember docs package owner d, Declaration.visitedAll,
      List.filterMap_append, Declaration.visitOwned]
    split <;> rfl

end

theorem omissions_visitPackageMembers (docs : Bool) (package : String) (ds : List Declaration) :
    (visitPackageMembers docs package ds).omissions =
      (Declaration.visitedAll docs package none ds).filterMap Encounter.omission? := by
  induction ds with
  | nil => rfl
  | cons d ds ih =>
    have first : (visitPackageMember docs package d).omissions =
        (d.visited docs package none).filterMap Encounter.omission? := by
      cases d with
      | ofType t members =>
        rw [visitPackageMember_ofType, omissions_visitMember docs package t, Declaration.filterMap_visited_ofType,
          Declaration.filterMap_visited_ofType]
      | ofExecutable e => rfl
      | ofVariable v => rfl
      | stray f =>
        rw [visitPackageMember, omissions_message fun _ => rfl, Declaration.visited,
          List.filterMap_eq_flatMap_toList, List.flatMap_singleton]
        · rfl
        · rintro t ds ⟨⟩
    have later : ∀ m : Option Term, (visitPackageMembers docs package ds >>= fun ms =>
        (pure (m.toList ++ ms) : Walk (List Term))).omissions =
          (Declaration.visitedAll docs package none ds).filterMap Encounter.omission? := by
      intro m
      rw [omissions_before fun _ => rfl, ih]
    rw [visitPackageMembers, omissions_bind later, first, Declaration.visitedAll, List.filterMap_append,
      Declaration.visitOwned]
    split <;> rfl

theorem Directive.omissions_visitList {ds : List Directive} (known : ∀ d ∈ ds, d.isStray = false)
    (moduleName : String) : (Directive.visitList moduleName ds).omissions = [] := by
  induction ds with
  | nil => rfl
  | cons d ds ih =>
    have others := ih fun e member => known e (List.mem_cons_of_mem _ member)
    have first : (d.visit moduleName).omissions = [] := by
      refine omissions_eq_nil (d.visit_balanced moduleName) ?_
      cases d with
      | requires m ms as =>
        rw [Directive.visit]
        split
        · rfl
        · exact skipped_noted fun _ => rfl
      | exports p ts as => exact skipped_noted fun _ => rfl
      | uses t => exact skipped_noted fun _ => rfl
      | provides t ts as => exact skipped_noted fun _ => skipped_noted fun _ => skipped_noted fun _ => rfl
      | stray f => exact Bool.noConfusion (known _ List.mem_cons_self)
    rw [Directive.visitList, omissions_before, first]
    intro t
    rw [omissions_before fun _ => rfl, others]

theorem Module.omissions_visit {m : Module} (known : ∀ d ∈ m.directives, d.isStray = false) :
    m.visit.omissions = [] := by
  rw [Module.visit, omissions_before fun _ => rfl]
  exact Directive.omissions_visitList known m.name

theorem Package.omissions_visit (docs : Bool) (p : Package) :
    (p.visit docs).omissions = (Declaration.visitedAll docs p.name none p.members).filterMap Encounter.omission? := by
  rw [Package.visit, omissions_before fun _ => rfl]
  exact omissions_visitPackageMembers docs p.name p.members

theorem omissions_walkScopes {docs : Bool} {ss : List Scope}
    (one : ∀ s ∈ ss, (s.visit docs).omissions = (s.visited docs).filterMap Encounter.omission?) (i : Index) :
    (walkScopes docs i ss).omissions = (Scope.visitedAll docs ss).filterMap Encounter.omission? := by
  induction ss generalizing i with
  | nil => rfl
  | cons s ss ih =>
    obtain ⟨first, others⟩ := List.forall_mem_cons.1 one
    rw [walkScopes, omissions_bind fun _ => ih others (i.enter s), first, Scope.visitedAll, List.filterMap_append]
    split <;> rfl

/-- Whether the directives of the modules are among those that there are. -/
def Program.hasKnownDirectives (p : Program) : Prop := ∀ m ∈ p.modules, ∀ d ∈ m.directives, d.isStray = false

/-- Where all directives are known, a walk leaves out what is left out of all that it has come to, wherever it ends. -/
theorem Program.omissions_walk {p : Program} (known : p.hasKnownDirectives) (docs : Bool) :
    (p.walk docs).omissions = (p.visited docs).filterMap Encounter.omission? := by
  refine omissions_walkScopes (fun s member => ?_) {}
  rcases List.mem_append.1 member with isModule | isPackage
  · obtain ⟨m, held, rfl⟩ := List.mem_map.1 isModule
    exact Module.omissions_visit (known m held)
  · obtain ⟨q, -, rfl⟩ := List.mem_map.1 isPackage
    exact q.omissions_visit docs

/-! ## Walks that come to their end -/

section Whole

variable {docs : Bool} {package : String}

theorem Walk.isOk_of_bind {α β : Type} {x : Walk α} {f : α → Walk β} (h : (x >>= f).isOk = true) :
    x.isOk = true ∧ ∃ a, (f a).isOk = true := by
  obtain ⟨b, ended⟩ := Walk.isOk_iff.1 h
  obtain ⟨a, first, second⟩ := Walk.result_bind_eq_ok.1 ended
  exact ⟨Walk.isOk_iff.2 ⟨a, first⟩, a, Walk.isOk_iff.2 ⟨b, second⟩⟩

open Walk (isOk_of_bind)

theorem isOk_of_visitMembers {ds : List Declaration} (ended : (visitMembers docs package ds).isOk = true) :
    ∀ d ∈ ds, (visitMember docs package d).isOk = true := by
  induction ds with
  | nil => simp
  | cons d ds ih =>
    rw [visitMembers] at ended
    obtain ⟨first, m, others⟩ := isOk_of_bind ended
    exact List.forall_mem_cons.2 ⟨first, ih (isOk_of_bind others).1⟩

theorem isOk_of_visitPackageMembers {ds : List Declaration}
    (ended : (visitPackageMembers docs package ds).isOk = true) :
    ∀ d ∈ ds, (visitPackageMember docs package d).isOk = true := by
  induction ds with
  | nil => simp
  | cons d ds ih =>
    rw [visitPackageMembers] at ended
    obtain ⟨first, m, others⟩ := isOk_of_bind ended
    exact List.forall_mem_cons.2 ⟨first, ih (isOk_of_bind others).1⟩

/-- The walk of a type of a known shape comes to its end only if the walks of its members do. -/
theorem isOk_of_visitOwned {owner : Option TypeHead} {t : TypeHead} {ds : List Declaration} (known : t.isKnown = true)
    (ended : ((Declaration.ofType t ds).visitOwned docs package owner).isOk = true) :
    ∀ d ∈ ds, (d.visitOwned docs package (some t)).isOk = true := by
  have member : (visitMember docs package (.ofType t ds)).isOk = true := by
    cases owner with
    | none => rwa [Declaration.visitOwned, visitPackageMember_ofType] at ended
    | some _ => exact ended
  rw [visitMember] at member
  have inside := (isOk_of_bind member).1
  rw [TypeHead.visitWith] at inside
  obtain ⟨shape, same⟩ := Option.isSome_iff_exists.1 known
  rw [same] at inside
  exact isOk_of_visitMembers (isOk_of_bind inside).1

mutual

theorem Declaration.visited_perm (owner : Option TypeHead) :
    ∀ d : Declaration, (d.visitOwned docs package owner).isOk = true →
      ((d.visited docs package owner).map Encounter.symbol).Perm (⟨owner, d⟩ :: d.inner)
  | .ofType t ds => by
    intro ended
    rw [visited, inner, List.map_cons]
    refine List.Perm.cons _ ?_
    by_cases known : t.isKnown = true
    · rw [if_pos known, if_pos known]
      exact (visitedAll_perm (some t) ds (isOk_of_visitOwned known ended)).trans List.perm_append_comm
    · rw [if_neg known, if_neg known]
      exact List.Perm.nil
  | .ofExecutable e => fun _ => by
    rw [visited, inner]
    exact List.Perm.refl _
  | .ofVariable v => fun _ => by
    rw [visited, inner]
    exact List.Perm.refl _
  | .stray f => fun _ => by
    rw [visited, inner]
    exact List.Perm.refl _

theorem Declaration.visitedAll_perm (owner : Option TypeHead) :
    ∀ ds : List Declaration, (∀ d ∈ ds, (d.visitOwned docs package owner).isOk = true) →
      ((visitedAll docs package owner ds).map Encounter.symbol).Perm (ds.map (⟨owner, ·⟩) ++ innerAll ds)
  | [] => fun _ => by
    rw [visitedAll, innerAll]
    exact List.Perm.nil
  | d :: ds => by
    intro ended
    obtain ⟨first, others⟩ := List.forall_mem_cons.1 ended
    rw [visitedAll, if_pos first, List.map_append, innerAll, List.map_cons]
    have both := (visited_perm owner d first).append (visitedAll_perm owner ds others)
    refine both.trans ?_
    rw [List.cons_append, List.cons_append]
    refine List.Perm.cons _ ?_
    rw [← List.append_assoc, ← List.append_assoc]
    exact List.perm_append_comm.append_right _

end

theorem isOk_of_walkScopes {ss : List Scope} {i : Index} (ended : (walkScopes docs i ss).isOk = true) :
    ∀ s ∈ ss, (s.visit docs).isOk = true := by
  induction ss generalizing i with
  | nil => simp
  | cons s ss ih =>
    rw [walkScopes] at ended
    obtain ⟨first, _, others⟩ := isOk_of_bind ended
    exact List.forall_mem_cons.2 ⟨first, ih others⟩

theorem Scope.visitedAll_eq {ss : List Scope} (ended : ∀ s ∈ ss, (s.visit docs).isOk = true) :
    visitedAll docs ss = ss.flatMap (visited docs) := by
  induction ss with
  | nil => rfl
  | cons s ss ih =>
    obtain ⟨first, others⟩ := List.forall_mem_cons.1 ended
    rw [visitedAll, if_pos first, ih others, List.flatMap_cons]

/-- A walk that comes to its end has come to all symbols. -/
theorem Program.visited_perm {p : Program} (ended : (p.walk docs).isOk = true) :
    ((p.visited docs).map Encounter.symbol).Perm p.symbols := by
  have scopes := isOk_of_walkScopes ended
  have packages : ∀ q ∈ p.packages,
      ((Scope.package q).visited docs |>.map Encounter.symbol).Perm q.symbols := by
    intro q member
    have done := scopes (.package q) (List.mem_append_right _ (List.mem_map_of_mem member))
    rw [Scope.visit, Package.visit] at done
    exact Declaration.visitedAll_perm none q.members (isOk_of_visitPackageMembers (isOk_of_bind done).1)
  have modules : (p.modules.map Scope.module).flatMap (Scope.visited docs) = [] := by
    simp [List.flatMap_map, Scope.visited]
  rw [visited, Scope.visitedAll_eq scopes, Program.scopes, List.flatMap_append, modules, List.nil_append,
    List.flatMap_map, List.map_flatMap, symbols]
  exact List.Perm.flatMap_left _ packages

end Whole

/-! ## Programs that were read -/

section Read

variable {q : Demands} {docs : Bool} {package : String}

mutual

theorem Declaration.meets_visited {owner : Option TypeHead} :
    ∀ d : Declaration, d.meets q = true → ∀ v ∈ d.visited docs package owner, v.symbol.declaration.meets q = true
  | .ofType t ds => by
    intro met v member
    rw [visited] at member
    rcases List.mem_cons.1 member with rfl | inside
    · exact met
    · rw [Declaration.meets, Bool.and_eq_true] at met
      split at inside
      · exact meets_visitedAll ds met.2 v inside
      · cases inside
  | .ofExecutable e | .ofVariable v | .stray f => by
    intro met v member
    rw [visited] at member
    rw [List.mem_singleton.1 member]
    exact met

theorem Declaration.meets_visitedAll {owner : Option TypeHead} :
    ∀ ds : List Declaration, allMeet q ds = true →
      ∀ v ∈ visitedAll docs package owner ds, v.symbol.declaration.meets q = true
  | [] => by
    intro _ v member
    rw [visitedAll] at member
    cases member
  | d :: ds => by
    intro met v member
    rw [allMeet, Bool.and_eq_true] at met
    rw [visitedAll] at member
    rcases List.mem_append.1 member with first | others
    · exact meets_visited d met.1 v first
    · split at others
      · exact meets_visitedAll ds met.2 v others
      · cases others

end

theorem Scope.mem_visitedAll {ss : List Scope} {v : Encounter} (visit : v ∈ visitedAll docs ss) :
    ∃ s ∈ ss, v ∈ s.visited docs := by
  induction ss with
  | nil => cases visit
  | cons s ss ih =>
    rw [visitedAll] at visit
    rcases List.mem_append.1 visit with here | later
    · exact ⟨s, List.mem_cons_self, here⟩
    · split at later
      · obtain ⟨r, member, found⟩ := ih later
        exact ⟨r, List.mem_cons_of_mem _ member, found⟩
      · cases later

theorem Program.meets_visited {p : Program} (met : p.meets q = true) :
    ∀ v ∈ p.visited docs, v.symbol.declaration.meets q = true := by
  intro v visit
  obtain ⟨s, member, found⟩ := Scope.mem_visitedAll visit
  cases s with
  | module m => cases found
  | package k =>
    have held : k ∈ p.packages := by simpa [Program.scopes] using member
    rw [Program.meets, Bool.and_eq_true] at met
    have all := List.all_eq_true.1 met.2 k held
    rw [Package.meets, Bool.and_eq_true, Bool.and_eq_true, ← Declaration.allMeet_eq_all] at all
    exact Declaration.meets_visitedAll k.members all.1.1 v found

theorem Program.hasKnownDirectives_of_meets {p : Program} (met : p.meets q = true) : p.hasKnownDirectives := by
  intro m member d directive
  rw [Program.meets, Bool.and_eq_true] at met
  have all := List.all_eq_true.1 met.1 m member
  rw [Module.meets, Bool.and_eq_true] at all
  have known := List.all_eq_true.1 all.2 d directive
  cases d with
  | stray f => cases known
  | _ => rfl

end Read

def Declaration.isType : Declaration → Bool
  | .ofType _ _ => true
  | .ofExecutable _ | .ofVariable _ | .stray _ => false

namespace Symbol

/-- Whether a direct member of a package is no type. -/
def isMisplaced (s : Symbol) : Bool := s.owner.isNone && !s.declaration.isType

/-- Whether a member of a type is an initializer. -/
def isInitializer (s : Symbol) : Bool :=
  s.owner.isSome &&
    match s.declaration with
    | .ofExecutable e => decide (e.kind ∈ ["STATIC_INIT", "INSTANCE_INIT"])
    | _ => false

/-- Whether a type is of no kind that has facts. -/
def isUnknownType (s : Symbol) : Bool :=
  match s.declaration with
  | .ofType t _ => decide (t.kind ∉ ["CLASS", "INTERFACE", "ENUM", "RECORD", "ANNOTATION_TYPE"])
  | _ => false

end Symbol

theorem Symbol.isUnknownType_ofType (owner : Option TypeHead) (t : TypeHead) (ds : List Declaration) :
    isUnknownType ⟨owner, .ofType t ds⟩ = !t.isKnown := by
  rw [isUnknownType, TypeHead.isKnown, TypeShape.ofKind?]
  repeat' split
  all_goals simp_all

/-- How a symbol is left out of the walk over a program that was read, if it is: in one of three ways. -/
inductive Foreseen (s : Symbol) : Option Warning → Prop
  | kept (placed : s.isMisplaced = false) (proper : s.isInitializer = false) (known : s.isUnknownType = false) :
      Foreseen s none
  | misplaced {shown package : String} (misplaced : s.isMisplaced = true) (proper : s.isInitializer = false)
      (known : s.isUnknownType = false) : Foreseen s (some (.packageMember shown package))
  | initializer {kind name : String} (placed : s.isMisplaced = false) (initializer : s.isInitializer = true)
      (known : s.isUnknownType = false) : Foreseen s (some (.executableKind kind name))
  | unknownType {kind name : String} (placed : s.isMisplaced = false) (proper : s.isInitializer = false)
      (unknown : s.isUnknownType = true) : Foreseen s (some (.typeKind kind name))

namespace Encounter

variable {package : String}

theorem foreseen_ofType (owner : Option TypeHead) (t : TypeHead) (ds : List Declaration) :
    Foreseen ⟨owner, .ofType t ds⟩ (omission? ⟨package, owner, .ofType t ds⟩) := by
  have placed : Symbol.isMisplaced ⟨owner, .ofType t ds⟩ = false := Bool.and_false _
  have proper : Symbol.isInitializer ⟨owner, .ofType t ds⟩ = false := Bool.and_false _
  have unknown := Symbol.isUnknownType_ofType owner t ds
  rw [omission?_ofType]
  cases known : t.isKnown with
  | true =>
    rw [known] at unknown
    exact .kept placed proper unknown
  | false =>
    rw [known] at unknown
    exact .unknownType placed proper unknown

/-- What has code in a type is a method, a constructor or an initializer. -/
theorem foreseen_ofExecutable (owner : TypeHead) {e : Executable} (kind : e.kind ∈ executableKinds) :
    Foreseen ⟨some owner, .ofExecutable e⟩ (omission? ⟨package, some owner, .ofExecutable e⟩) := by
  have own : omission? ⟨package, some owner, .ofExecutable e⟩ =
      if e.kind = "METHOD" then none else if e.kind = "CONSTRUCTOR" then none
      else some (.executableKind e.kind e.name) := rfl
  have initial : Symbol.isInitializer ⟨some owner, .ofExecutable e⟩ =
      decide (e.kind ∈ ["STATIC_INIT", "INSTANCE_INIT"]) := rfl
  simp only [executableKinds, List.mem_cons, List.not_mem_nil, or_false] at kind
  rcases kind with same | same | same | same <;> rw [same] at initial
  · rw [own, if_pos same]
    exact .kept rfl initial rfl
  · rw [own, same, if_neg (by decide), if_pos rfl]
    exact .kept rfl initial rfl
  · rw [own, same, if_neg (by decide), if_neg (by decide)]
    exact .initializer rfl initial rfl
  · rw [own, same, if_neg (by decide), if_neg (by decide)]
    exact .initializer rfl initial rfl

/-- The kinds that variables are read with fit those that walks know: a field has a fact, and all others are passed
over. -/
theorem mem_variableKinds_iff (kind : String) :
    kind ∈ variableKinds ↔ kind = "FIELD" ∨ kind ∈ ignoredVariableKinds := by
  have read : ∀ k ∈ variableKinds, k = "FIELD" ∨ k ∈ ignoredVariableKinds := by decide
  have passed : ∀ k ∈ ignoredVariableKinds, k ∈ variableKinds := by decide
  constructor
  · exact read kind
  · rintro (rfl | ignored)
    · decide
    · exact passed kind ignored

/-- A variable in a type is a field, or of a kind that is passed over without a warning. -/
theorem foreseen_ofVariable (owner : TypeHead) {x : Variable} (kind : x.kind ∈ variableKinds) :
    Foreseen ⟨some owner, .ofVariable x⟩ (omission? ⟨package, some owner, .ofVariable x⟩) := by
  have own : omission? ⟨package, some owner, .ofVariable x⟩ =
      if x.kind ∈ ignoredVariableKinds then none else if x.kind = "FIELD" then none
      else some (.variableKind x.kind x.name) := rfl
  rcases (mem_variableKinds_iff x.kind).1 kind with field | ignored
  · rw [own, field, if_neg (by decide), if_pos rfl]
    exact .kept rfl rfl rfl
  · rw [own, if_pos ignored]
    exact .kept rfl rfl rfl

/-- The kinds of declarations that were read are known, but for those of types. -/
theorem foreseen {v : Encounter} (met : v.symbol.declaration.meets {} = true) :
    Foreseen v.symbol v.omission? := by
  obtain ⟨package, owner, d⟩ := v
  cases d with
  | ofType t ds => exact foreseen_ofType owner t ds
  | ofExecutable e =>
    cases owner with
    | none => exact .misplaced rfl rfl rfl
    | some t =>
      refine foreseen_ofExecutable t ?_
      simp only [Declaration.meets, Executable.meets, Bool.and_eq_true, decide_eq_true_eq] at met
      tauto
  | ofVariable x =>
    cases owner with
    | none => exact .misplaced rfl rfl rfl
    | some t =>
      refine foreseen_ofVariable t ?_
      simp only [Declaration.meets, Variable.meets, Bool.and_eq_true, decide_eq_true_eq] at met
      tauto
  | stray f => cases met

end Encounter

/-- Of symbols each of which is left out in one of three ways if at all, as many are left out as there are of the three
sorts. -/
theorem countP_omission {vs : List Encounter} (foreseen : ∀ v ∈ vs, Foreseen v.symbol v.omission?) :
    (vs.filterMap Encounter.omission?).length =
      vs.countP (·.symbol.isMisplaced) + vs.countP (·.symbol.isInitializer) + vs.countP (·.symbol.isUnknownType) := by
  induction vs with
  | nil => rfl
  | cons v vs ih =>
    obtain ⟨first, others⟩ := List.forall_mem_cons.1 foreseen
    have later := ih others
    rw [List.filterMap_cons, List.countP_cons, List.countP_cons, List.countP_cons]
    generalize v.omission? = omission at first
    cases first with
    | kept placed proper known => simpa [placed, proper, known] using later
    | misplaced misplaced proper known =>
      simp [misplaced, proper, known, later]
      omega
    | initializer placed initializer known =>
      simp [placed, initializer, known, later]
      omega
    | unknownType placed proper unknown =>
      simp [placed, proper, unknown, later]
      omega

/-- **Only what is foreseen is left out of a program that was read.** Whatever ends its walk, no warning says that a
directive, a member or a kind of variables is unknown. What is counted as left out are the direct members of packages
that are no types, the initializers in types and the types of other kinds than the five that have facts, as many as the
walk has come to; and a walk that comes to its end has come to all symbols. -/
theorem walk_leaves_out_foreseen {d : Document} {p : Program} (read : readProgram d = .ok p) (docs : Bool) :
    (∀ w ∈ (p.walk docs).warnings, (∀ shown m, w ≠ .directive shown m) ∧ (∀ shown, w ≠ .member shown) ∧
      ∀ kind name, w ≠ .variableKind kind name) ∧
    (p.walk docs).tally.skipped =
      (p.visited docs).countP (·.symbol.isMisplaced) + (p.visited docs).countP (·.symbol.isInitializer) +
        (p.visited docs).countP (·.symbol.isUnknownType) ∧
    ((p.walk docs).isOk = true → ((p.visited docs).map Encounter.symbol).Perm p.symbols) := by
  have met : p.meets {} = true := Program.meets_of_readProgram read (Demands.meets_nothing d)
  have foreseen : ∀ v ∈ p.visited docs, Foreseen v.symbol v.omission? :=
    fun v member => Encounter.foreseen (Program.meets_visited met v member)
  have omissions := Program.omissions_walk (Program.hasKnownDirectives_of_meets met) docs
  refine ⟨fun w member => ?_, ?_, Program.visited_perm⟩
  · cases skip : w.isSkip with
    | false => cases w <;> simp_all [Warning.isSkip]
    | true =>
      have omitted : w ∈ (p.walk docs).omissions := List.mem_filter.2 ⟨member, skip⟩
      rw [omissions] at omitted
      obtain ⟨v, visit, told⟩ := List.mem_filterMap.1 omitted
      have known := foreseen v visit
      rw [told] at known
      cases known <;> simp
  · rw [← Walk.length_omissions (Program.walk_balanced docs p), omissions, countP_omission foreseen]

/-- A program with something of each sort before a method that has the integer in an annotation, and after it. -/
def Program.omittingSample (n : Int) : Program :=
  { modules := [{ name := "m", directives := [.uses (.declared "S" [])] }]
    packages := [{
      name := "p"
      members := [
        .ofVariable { kind := "FIELD", name := "y", type := .primitive "int" },
        .ofType { kind := "CLASS", name := "A" }
          [.ofExecutable { kind := "STATIC_INIT", name := "" },
            .ofVariable { kind := "ENUM_CONSTANT", name := "ONE", type := .primitive "int" },
            .ofType { kind := "OTHER", name := "B" } [.ofExecutable { kind := "INSTANCE_INIT", name := "" }],
            .ofExecutable
              { kind := "METHOD", name := "run", annotations := [{ name := "N", arguments := [("v", .integer n)] }] },
            .ofExecutable { kind := "INSTANCE_INIT", name := "" }],
        .ofExecutable { kind := "METHOD", name := "main" }] }] }

/-- An integer with too many digits ends the walk, and what follows it is not counted. -/
theorem walk_leaves_out_foreseen_stopped :
    (∀ n, readProgram (Program.omittingSample n).document = .ok (.omittingSample n)) ∧
      ((Program.omittingSample Numeral.writableBound).walk true).isOk = false ∧
      ((Program.omittingSample Numeral.writableBound).walk true).tally.skipped = 3 ∧
      ((Program.omittingSample 1).walk true).tally.skipped = 5 := by
  have read : ∀ n, readProgram (Program.omittingSample n).document = .ok (.omittingSample n) := by
    intro n
    have loadable : (Program.omittingSample n).isLoadable = true := rfl
    exact readProgram_document loadable
  refine ⟨read, by decide +kernel, ?_, ?_⟩
  · rw [(walk_leaves_out_foreseen (read Numeral.writableBound) true).2.1]
    decide +kernel
  · rw [(walk_leaves_out_foreseen (read 1) true).2.1]
    decide +kernel

end ProgramFacts
