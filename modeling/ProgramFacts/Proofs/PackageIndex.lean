import Mathlib.Data.List.Infix
import ProgramFacts.Proofs.Form.ScopeSimulation
import ProgramFacts.Proofs.ModeFiles

/-!
# The package index

Modules and packages may be visited in any order, and a visit that fails does not undo those before it. Whether a
package is listed is up to the scopes before it: it is, unless one of them has made it internal. In a program all
modules come before all packages, so that neither their order nor that of their directives is of account.
-/

namespace ProgramFacts

/-! ## Scopes in the index -/

namespace Scope

/-- Whether every integer that the facts and the warnings of the scope show can be written. -/
def isWritable (s : Scope) : Bool := s.shown.all Shown.isWritable

/-- The name of a scope that is a package. -/
def packageName? : Scope → Option String
  | .module _ => none
  | .package p => some p.name

/-- The packages that a scope exports to some modules only. -/
def internal : Scope → List String
  | .module m => m.directives.filterMap Directive.internal?
  | .package _ => []

/-- The packages that the visit of a scope makes internal, whether or not it comes to its end. -/
def noted : Scope → List String
  | .module m => Directive.noted m.directives
  | .package _ => []

/-- The name under which a scope is listed as a package where some are internal. -/
def listed? (internal : List String) (s : Scope) : Option String :=
  if s.isWritable then s.packageName?.filter (· ∉ internal) else none

theorem listed?_congr {a b : List String} (same : ∀ n, n ∈ a ↔ n ∈ b) (s : Scope) : s.listed? a = s.listed? b := by
  simp only [listed?, same]

theorem noted_of_isWritable {s : Scope} (writable : s.isWritable = true) : s.noted = s.internal := by
  cases s with
  | package p => rfl
  | module m =>
    rw [isWritable, shown] at writable
    rw [noted, internal]
    generalize m.directives = ds at writable
    induction ds with
    | nil => rfl
    | cons d ds ih =>
      rw [List.flatMap_cons, List.all_append, Bool.and_eq_true] at writable
      rw [Directive.noted, Directive.isWritable, writable.1, if_pos rfl, ih writable.2, List.filterMap_cons]
      cases d.internal? <;> rfl

theorem isOk_visit_of_hasTextDocs {s : Scope} (text : s.hasTextDocs = true) (docs : Bool) :
    (s.visit docs).isOk = s.isWritable := by
  rw [isOk_visit, Document.all_hasAtom s.shownDocs_subset text, Bool.and_true]
  rfl

end Scope

namespace Index

/-- The index after the visit of a scope, whether or not it comes to its end. -/
def visiting (i : Index) (s : Scope) : Index :=
  { modules := i.modules ++ if s.isWritable then s.moduleName?.toList else []
    packages := i.packages ++ (s.listed? i.internal).toList
    internal := s.noted.foldl addInternal i.internal }

theorem mem_addInternal {known : List String} {name n : String} :
    n ∈ addInternal known name ↔ n ∈ known ∨ n = name := by
  rw [addInternal]
  split
  · next there => exact ⟨Or.inl, fun h => h.elim id fun same => same ▸ there⟩
  · simp

theorem mem_foldl_addInternal {known names : List String} {n : String} :
    n ∈ names.foldl addInternal known ↔ n ∈ known ∨ n ∈ names := by
  induction names generalizing known with
  | nil => simp
  | cons name names ih => rw [List.foldl_cons, ih, mem_addInternal, List.mem_cons, or_assoc]

theorem modules_foldl_visiting (ss : List Scope) (i : Index) :
    (ss.foldl visiting i).modules = i.modules ++ (ss.filter Scope.isWritable).filterMap Scope.moduleName? := by
  induction ss generalizing i with
  | nil => simp
  | cons s ss ih =>
    rw [List.foldl_cons, ih, visiting, List.filter_cons]
    cases s.isWritable with
    | false => simp
    | true => cases name : s.moduleName? <;> simp [name]

/-- A package is listed unless a scope before it made it internal, or it was so from the start. -/
theorem packages_foldl_visiting (ss : List Scope) (i : Index) :
    (ss.foldl visiting i).packages =
      i.packages ++ (ss.zip ss.inits).filterMap fun v => v.1.listed? (i.internal ++ v.2.flatMap Scope.noted) := by
  induction ss generalizing i with
  | nil => simp
  | cons s ss ih =>
    have later : (fun v : Scope × List Scope => v.1.listed? ((i.visiting s).internal ++ v.2.flatMap Scope.noted)) =
        fun v => v.1.listed? (i.internal ++ (s :: v.2).flatMap Scope.noted) := by
      funext v
      refine Scope.listed?_congr (fun n => ?_) v.1
      rw [List.flatMap_cons, List.mem_append, List.mem_append, List.mem_append, visiting, mem_foldl_addInternal,
        or_assoc]
    have here : (i.visiting s).packages = i.packages ++ (s.listed? (i.internal ++ [].flatMap Scope.noted)).toList := by
      rw [List.flatMap_nil, List.append_nil, visiting]
    rw [List.foldl_cons, ih, later, here, List.inits_cons, List.zip_cons_cons, List.zip_map_right,
      List.filterMap_cons, List.filterMap_map]
    cases s.listed? (i.internal ++ [].flatMap Scope.noted) <;> simp

end Index

/-! ## Visits in any order -/

/-- The trace after the visit of a scope, whether or not it comes to its end. -/
def Trace.visiting (docs : Bool) (t : Trace) (s : Scope) : Trace := ((s.visitForm docs).run.run t).2

theorem Form.text_beq_iff {name : String} {f : Form} : (Form.text name == f) = true ↔ f.text? = some name := by
  cases f with
  | scalar value =>
    change decide (Scalar.text name = value) = true ↔ _
    cases value <;> simp [Form.text?, eq_comm]
  | tuple items => exact iff_of_false Bool.false_ne_true fun impossible => by cases impossible
  | record sort fields => exact iff_of_false Bool.false_ne_true fun impossible => by cases impossible

theorem Form.contains_text {fs : List Form} {name : String} :
    fs.contains (.text name) = true ↔ name ∈ fs.filterMap Form.text? := by
  simp only [List.contains_iff_exists_mem_beq, List.mem_filterMap, Form.text_beq_iff]

theorem Form.filterMap_addInternal (known : List Form) (names : List String) :
    (names.foldl Form.addInternal known).filterMap Form.text? =
      names.foldl Index.addInternal (known.filterMap Form.text?) := by
  induction names generalizing known with
  | nil => rfl
  | cons name names ih =>
    rw [List.foldl_cons, List.foldl_cons, ih, Form.addInternal, Index.addInternal]
    simp only [Form.contains_text]
    split
    · rfl
    · rw [List.filterMap_append]
      rfl

/-- **What one visit does to the index.** -/
theorem Trace.index_visiting {s : Scope} (proper : s.isProper = true) (text : s.hasTextDocs = true) (docs : Bool)
    (t : Trace) : (t.visiting docs s).index = t.index.visiting s := by
  have ends := Scope.isOk_visit_of_hasTextDocs text docs
  cases s with
  | module m =>
    have listing : m.visit.listing m.name = if (Scope.module m).isWritable then [m.name] else [] := by
      rw [Walk.listing, ← ends]
      rfl
    have unlisted : (Scope.module m).listed? t.index.internal = none := ite_self none
    have internal : ((t.after m.visit []).noting (Directive.noted m.directives)).index.internal =
        (Scope.module m).noted.foldl Index.addInternal t.index.internal := Form.filterMap_addInternal _ _
    rw [Trace.visiting, Scope.visitForm, Module.run_visit proper, listing, Index.visiting, unlisted,
      Option.toList_none, List.append_nil, ← internal]
    rfl
  | package p =>
    have listing : (if t.isInternal (.text p.name) then [] else (p.visit docs).listing p.name) =
        ((Scope.package p).listed? t.index.internal).toList := by
      have known : t.isInternal (.text p.name) = decide (p.name ∈ t.index.internal) := by
        rw [Bool.eq_iff_iff, decide_eq_true_eq]
        exact Form.contains_text
      rw [Walk.listing, Scope.listed?, ← ends, known]
      change _ = (if (p.visit docs).isOk then (some p.name).filter (· ∉ t.index.internal) else none).toList
      by_cases there : p.name ∈ t.index.internal <;> cases (p.visit docs).isOk <;> simp [Option.filter, there]
    rw [Trace.visiting, Scope.visitForm, Package.run_visit proper text, listing, Index.visiting, Scope.moduleName?,
      Option.toList_none, ite_self, List.append_nil]
    rfl

theorem Trace.events_visiting {s : Scope} (proper : s.isProper = true) (text : s.hasTextDocs = true) (docs : Bool)
    (t : Trace) : (t.visiting docs s).events = t.events ++ (s.visit docs).events := by
  cases s with
  | module m =>
    rw [Trace.visiting, Scope.visitForm, Module.run_visit proper]
    rfl
  | package p =>
    rw [Trace.visiting, Scope.visitForm, Package.run_visit proper text]
    rfl

theorem Scope.isOk_visitForm {s : Scope} (proper : s.isProper = true) (text : s.hasTextDocs = true) (docs : Bool)
    (t : Trace) : ((s.visitForm docs).run.run t).1.isOk = s.isWritable := by
  have same : ((s.visitForm docs).run.run t).1 = (s.visit docs).result.map Except.ok := by
    cases s with
    | module m =>
      rw [Scope.visitForm, Module.run_visit proper]
      rfl
    | package p =>
      rw [Scope.visitForm, Package.run_visit proper text]
      rfl
  rw [same, ← Scope.isOk_visit_of_hasTextDocs text docs, Walk.isOk]
  cases (s.visit docs).result <;> rfl

theorem Trace.index_visitAll {ss : List Scope} (proper : ∀ s ∈ ss, s.isProper = true)
    (text : ∀ s ∈ ss, s.hasTextDocs = true) (docs : Bool) (t : Trace) :
    (ss.foldl (Trace.visiting docs) t).index = ss.foldl Index.visiting t.index := by
  induction ss generalizing t with
  | nil => rfl
  | cons s ss ih =>
    rw [List.forall_mem_cons] at proper text
    rw [List.foldl_cons, ih proper.2 text.2, Trace.index_visiting proper.1 text.1, List.foldl_cons]

theorem Trace.events_visitAll {ss : List Scope} (proper : ∀ s ∈ ss, s.isProper = true)
    (text : ∀ s ∈ ss, s.hasTextDocs = true) (docs : Bool) (t : Trace) :
    (ss.foldl (Trace.visiting docs) t).events = t.events ++ ss.flatMap fun s => (s.visit docs).events := by
  induction ss generalizing t with
  | nil => simp
  | cons s ss ih =>
    rw [List.forall_mem_cons] at proper text
    rw [List.foldl_cons, ih proper.2 text.2, Trace.events_visiting proper.1 text.1, List.append_assoc,
      List.flatMap_cons]

/-! ## Programs -/

/-- The packages that some module of a program exports to some modules only. -/
def Program.internal (p : Program) : List String := (p.modules.map Scope.module).flatMap Scope.internal

theorem Index.foldl_enter_modules (ms : List Module) (i : Index) :
    ((ms.map Scope.module).foldl enter i).packages = i.packages ∧
      ∀ n, n ∈ ((ms.map Scope.module).foldl enter i).internal ↔
        n ∈ i.internal ∨ n ∈ (ms.map Scope.module).flatMap Scope.internal := by
  induction ms generalizing i with
  | nil => simp
  | cons m ms ih =>
    obtain ⟨packages, internal⟩ := ih (i.enter (.module m))
    refine ⟨packages, fun n => ?_⟩
    rw [List.map_cons, List.foldl_cons, internal, List.flatMap_cons, List.mem_append, ← or_assoc]
    exact or_congr_left mem_foldl_addInternal

theorem Index.foldl_enter_packages (ps : List Package) (i : Index) :
    ((ps.map Scope.package).foldl enter i).packages =
      i.packages ++ (ps.map (·.name)).filter (· ∉ i.internal) := by
  induction ps generalizing i with
  | nil => simp
  | cons p ps ih =>
    rw [List.map_cons, List.foldl_cons, ih, List.map_cons, List.filter_cons]
    by_cases there : p.name ∈ i.internal
    · simp [enter, there]
    · simp [enter, there]

/-- The index of a program has the packages that no module exports to some modules only. -/
theorem Program.packages_index (p : Program) :
    p.index.packages = (p.packages.map (·.name)).filter (· ∉ p.internal) := by
  obtain ⟨packages, internal⟩ := Index.foldl_enter_modules p.modules {}
  rw [Program.index, Program.scopes, List.foldl_append, Index.foldl_enter_packages, packages, List.nil_append]
  refine List.filter_congr fun n _ => ?_
  rw [decide_eq_decide, internal, Program.internal]
  simp

/-- The same module, with its directives in any order. -/
structure Module.Rearranged (m m' : Module) : Prop where
  directives : m.directives.Perm m'.directives
  others : m' = { m with directives := m'.directives }

/-- The same program, with its modules and their directives in any order. -/
structure Program.Rearranged (p p' : Program) : Prop where
  modules : ∃ ms, p.modules.Perm ms ∧ List.Forall₂ Module.Rearranged ms p'.modules
  packages : p'.packages = p.packages

/-- What comes of the directives is the same up to order. -/
theorem Program.Rearranged.perm {β : Type} {p p' : Program} (same : p.Rearranged p') (f : Directive → List β) :
    (p.modules.flatMap (·.directives.flatMap f)).Perm (p'.modules.flatMap (·.directives.flatMap f)) := by
  obtain ⟨ms, order, each⟩ := same.modules
  refine (order.flatMap_right _).trans ?_
  generalize p'.modules = ms' at each
  clear order
  induction each with
  | nil => exact .nil
  | cons here _ ih =>
    rw [List.flatMap_cons, List.flatMap_cons]
    exact (here.directives.flatMap_right f).append ih

theorem Program.Rearranged.mem_internal {p p' : Program} (same : p.Rearranged p') (n : String) :
    n ∈ p'.internal ↔ n ∈ p.internal := by
  have flat : ∀ q : Program, q.internal = q.modules.flatMap (·.directives.flatMap fun d => d.internal?.toList) := by
    intro q
    simp only [← List.filterMap_eq_flatMap_toList]
    exact List.flatMap_map ..
  rw [flat, flat]
  exact (same.perm _).mem_iff.symm

/-- The order of modules and directives does not matter to whether a walk comes to its end. -/
theorem Program.Rearranged.isOk_walk {p p' : Program} (same : p.Rearranged p') (docs : Bool) :
    (p'.walk docs).isOk = (p.walk docs).isOk := by
  have shown : ∀ q : Program, q.shown =
      q.modules.flatMap (·.directives.flatMap Directive.shown) ++ (q.packages.map .package).flatMap Scope.shown := by
    intro q
    rw [Program.shown, Program.scopes, List.flatMap_append]
    congr 1
    exact List.flatMap_map ..
  have shownDocs : ∀ q : Program, q.shownDocs = (q.packages.map .package).flatMap Scope.shownDocs := by
    intro q
    have none : (q.modules.map Scope.module).flatMap Scope.shownDocs = [] := by
      simp [List.flatMap_map, Scope.shownDocs]
    rw [Program.shownDocs, Program.scopes, List.flatMap_append, none, List.nil_append]
  rw [isOk_walk_eq, isOk_walk_eq, isWritable, isWritable, shown, shown, shownDocs, shownDocs, same.packages,
    List.all_append, List.all_append, (same.perm Directive.shown).all_eq]

/-- A walk that comes to its end writes the fact of each package. -/
theorem Program.written_package {p : Program} {docs : Bool} {i : Index} (ended : (p.walk docs).result = .ok i)
    {q : Package} (member : q ∈ p.packages) :
    ∃ fact, (q.visit docs).result = .ok fact ∧ (Key.package q.name, fact) ∈ (p.walk docs).writes := by
  have subject : Subject.package q ∈ p.subjects := by
    rw [Program.subjects, List.mem_append, List.mem_flatMap]
    exact Or.inr ⟨q, member, List.mem_append_right _ List.mem_cons_self⟩
  obtain ⟨fact, own⟩ := Program.hasFact_of_mem ended subject
  exact ⟨fact, own, (Program.mem_writes ended).2 ⟨_, subject, rfl, own⟩⟩

/-- **The package index.** Modules and packages are visited in any order, from any trace. A visit comes to its end if
and only if every integer that a fact or a warning of the scope shows can be written. The modules whose visits come to
their end are listed in order, and so are the packages, except those that were internal from the start or that a module
before them has made internal. A module does so with the packages that it exports to some modules only; if its visit
fails, with those up to the directive that it fails at.

In the index of a program, therefore, are the packages that no module exports to some modules only. The order of the
modules and of their directives is of no account, and the packages that are not listed are written all the same. -/
theorem packages_listed_unless_internal (docs : Bool) (ss : List Scope) (before : Trace) (p : Program)
    (proper : ∀ s ∈ ss, s.isProper = true) (text : ∀ s ∈ ss, s.hasTextDocs = true) :
    ((∀ s ∈ ss, (∀ t, ((s.visitForm docs).run.run t).1.isOk = s.isWritable) ∧
        (s.isWritable = true → s.noted = s.internal)) ∧
      (ss.foldl (Trace.visiting docs) before).events = before.events ++ ss.flatMap (fun s => (s.visit docs).events) ∧
      (ss.foldl (Trace.visiting docs) before).modules =
        before.modules ++ (ss.filter Scope.isWritable).filterMap Scope.moduleName? ∧
      (ss.foldl (Trace.visiting docs) before).packages = before.packages ++
        (ss.zip ss.inits).filterMap fun v => v.1.listed? (before.index.internal ++ v.2.flatMap Scope.noted)) ∧
    (p.walk docs).isOk = (p.isWritable && p.shownDocs.all (Document.hasAtom docs)) ∧
    ∀ i, (p.walk docs).result = .ok i →
      i.modules = p.modules.map (·.name) ∧
      i.packages = (p.packages.map (·.name)).filter (· ∉ p.internal) ∧
      (∀ p', p.Rearranged p' → ∃ j, (p'.walk docs).result = .ok j ∧ j.packages = i.packages) ∧
      ∀ q ∈ p.packages, ∃ fact, (q.visit docs).result = .ok fact ∧
        (Key.package q.name, fact) ∈ (p.walk docs).writes := by
  have index := Trace.index_visitAll proper text docs before
  refine ⟨⟨fun s member => ⟨?_, Scope.noted_of_isWritable⟩, ?_, ?_, ?_⟩, p.isOk_walk_eq docs, fun i ended => ?_⟩
  · exact Scope.isOk_visitForm (proper s member) (text s member) docs
  · exact Trace.events_visitAll proper text docs before
  · exact (congrArg Index.modules index).trans (Index.modules_foldl_visiting ss before.index)
  · exact (congrArg Index.packages index).trans (Index.packages_foldl_visiting ss before.index)
  · have indexed : i = p.index := walkScopes_eq_ok ended
    subst indexed
    refine ⟨p.modules_index, p.packages_index, fun p' same => ?_, fun q member => p.written_package ended member⟩
    have ends : (p'.walk docs).isOk = true := by rw [same.isOk_walk docs, Walk.isOk_iff.2 ⟨_, ended⟩]
    obtain ⟨j, ended'⟩ := Walk.isOk_iff.1 ends
    have indexed : j = p'.index := walkScopes_eq_ok ended'
    refine ⟨j, ended', ?_⟩
    rw [indexed, p'.packages_index, p.packages_index, same.packages]
    simp only [same.mem_internal]

/-- A module that exports a package to everyone and then to one module only. -/
def Module.exportingSample : Module :=
  { name := "m", directives := [.exports "p" [] [], .exports "p" ["x"] [], .exports "q" [] []] }

/-- A package is listed before the module that makes it internal is visited, and not afterwards. -/
theorem packages_listed_unless_internal_interleaved :
    let ss : List Scope :=
      [.package { name := "p" }, .module Module.exportingSample, .package { name := "p" }, .package { name := "q" }]
    let p : Program := { modules := [Module.exportingSample], packages := [{ name := "q" }, { name := "p" }] }
    ((∀ s ∈ ss, s.isProper = true) ∧ ∀ s ∈ ss, s.hasTextDocs = true) ∧
      (ss.foldl (Trace.visiting true) {}).packages = ["p", "q"] ∧
      ∃ i, (p.walk true).result = .ok i ∧ i.packages = ["q"] := by
  intro ss p
  have proper : ∀ s ∈ ss, s.isProper = true := by decide
  have text : ∀ s ∈ ss, s.hasTextDocs = true := by decide
  obtain ⟨⟨-, -, -, listed⟩, ends, indexed⟩ := packages_listed_unless_internal true ss {} p proper text
  obtain ⟨i, ended⟩ := Walk.isOk_iff.1 ends
  exact ⟨⟨proper, text⟩, listed, i, ended, (indexed i ended).2.1⟩

/-- A module that exports a package to one module only, and then another one with the integer in an annotation. -/
def Module.notedSample (n : Int) : Module :=
  { name := "m"
    directives := [.exports "p" ["x"] [], .exports "q" [] [{ name := "N", arguments := [("v", .integer n)] }]] }

theorem Module.isWritable_notedSample (n : Int) : (Scope.module (notedSample n)).isWritable = Numeral.isWritable n := by
  change (Numeral.isWritable n && true && true) = Numeral.isWritable n
  rw [Bool.and_true, Bool.and_true]

theorem Module.noted_notedSample (n : Int) : (Scope.module (notedSample n)).noted = ["p"] := by
  have first : (Directive.exports "p" ["x"] []).isWritable = true := rfl
  simp [Scope.noted, notedSample, Directive.noted, Directive.internal?, first]

/-- The module, and behind it the package. -/
def Program.exportedSample (n : Int) : Program := { modules := [.notedSample n], packages := [{ name := "p" }] }

theorem Program.index_exportedSample {n : Int} (oversized : Numeral.isWritable n = false) (docs : Bool) :
    ((exportedSample n).scopes.foldl (Trace.visiting docs) {}).index = { internal := ["p"] } := by
  have proper : ∀ s ∈ (exportedSample n).scopes, s.isProper = true :=
    List.forall_mem_cons.2 ⟨rfl, List.forall_mem_cons.2 ⟨rfl, List.forall_mem_nil _⟩⟩
  have text : ∀ s ∈ (exportedSample n).scopes, s.hasTextDocs = true :=
    List.forall_mem_cons.2 ⟨rfl, List.forall_mem_cons.2 ⟨rfl, List.forall_mem_nil _⟩⟩
  have module : Index.visiting {} (.module (.notedSample n)) = { internal := ["p"] } := by
    rw [Index.visiting, Scope.listed?, Module.isWritable_notedSample, oversized, Module.noted_notedSample]
    rfl
  rw [Trace.index_visitAll proper text]
  change (Index.visiting {} (.module (.notedSample n))).visiting _ = _
  rw [module]
  rfl

/-- If the integer has too many digits, the module is not listed, and neither is the package behind it. The walk of the
program does not come to its end. -/
theorem packages_unlisted_oversized :
    (∀ docs, ((Program.exportedSample Numeral.writableBound).scopes.foldl (Trace.visiting docs) {}).index =
        { internal := ["p"] }) ∧
      ∀ docs, ((Program.exportedSample Numeral.writableBound).walk docs).isOk = false := by
  have unwritable : ∀ n, (Program.exportedSample n).isWritable = Numeral.isWritable n := fun n => by
    change (Numeral.isWritable n && true && true) = Numeral.isWritable n
    rw [Bool.and_true, Bool.and_true]
  refine ⟨Program.index_exportedSample Numeral.not_isWritable_writableBound, fun docs => ?_⟩
  rw [Program.isOk_walk_eq, unwritable, Numeral.not_isWritable_writableBound, Bool.false_and]

end ProgramFacts
