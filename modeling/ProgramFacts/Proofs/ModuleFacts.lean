import ProgramFacts.Proofs.PackageIndex
import ProgramFacts.Proofs.WalkFaults

/-!
# The facts of modules

The directives of a module are gone through once, whatever their kinds, and each kind has a list of its own in the
module's fact. In it are the terms of the directives of that kind in order, one for one, except requirements that go
without saying. So it does not matter to the fact how directives of different kinds are interleaved, and neither does it
to the packages that are made internal, as long as the visit comes to its end. What is of no kind is left out, with a
warning that shows it.
-/

namespace ProgramFacts

open Walk (ends_pure ends_bind)

/-- The kinds of directives. -/
inductive DirectiveKind
  | requires
  | exports
  | uses
  | provides
deriving DecidableEq

/-- The term, if it goes to the list of the kind. -/
def DirectiveTerm.ofKind? : DirectiveKind → DirectiveTerm → Option Term
  | .requires => requires?
  | .exports => exports?
  | .uses => uses?
  | .provides => provides?

namespace Directive

def kind? : Directive → Option DirectiveKind
  | .requires _ _ _ => some .requires
  | .exports _ _ _ => some .exports
  | .uses _ => some .uses
  | .provides _ _ _ => some .provides
  | .stray _ => none

/-- Whether a directive goes without saying: a requirement of the base module that has no modifier of account. -/
def IsImplied : Directive → Prop
  | .requires n ms _ => n = "java.base" ∧ ∀ m ∈ ms, Text.lower m ≠ "transitive" ∧ Text.lower m ≠ "static"
  | _ => False

theorem isImpliedRequirement_iff {n : String} {ms : List String} {as : List Annotation} :
    isImpliedRequirement n ms = true ↔ (requires n ms as).IsImplied := by
  simp [isImpliedRequirement, baseModule, IsImplied, not_or]

instance : DecidablePred IsImplied
  | .requires _ _ _ => decidable_of_iff _ isImpliedRequirement_iff
  | .exports _ _ _ | .uses _ | .provides _ _ _ | .stray _ => isFalse id

/-- The directives of a kind. -/
def ofKind (k : DirectiveKind) (ds : List Directive) : List Directive := ds.filter (·.kind? = some k)

/-- What is among the directives, but of no kind. -/
def strays (ds : List Directive) : List Directive := ds.filter (·.kind? = none)

/-- The directives of a kind that do not go without saying. -/
def told (k : DirectiveKind) (ds : List Directive) : List Directive := (ofKind k ds).filter (¬ IsImplied ·)

/-- Whether a term is that of a directive. -/
def HasTerm : Directive → Term → Prop
  | .requires m ms as, t =>
    ∃ notes, (encodeAnnotations as).result = .ok notes ∧
      t = .compound "requires" [atoms (ms.map Text.lower), .atom m, notes]
  | .exports p ts as, t =>
    ∃ notes, (encodeAnnotations as).result = .ok notes ∧ t = .compound "exports" [.atom p, atoms ts, notes]
  | .uses service, t => service.encode.result = .ok t
  | .provides service implementations as, t =>
    ∃ s is notes, service.encode.result = .ok s ∧ (encodeTypes implementations).result = .ok is ∧
      (encodeAnnotations as).result = .ok notes ∧ t = .compound "provides" [s, is, notes]
  | .stray _, _ => False

/-- A directive has one term at most. -/
theorem HasTerm.unique {d : Directive} {t u : Term} (first : d.HasTerm t) (second : d.HasTerm u) : t = u := by
  cases d with
  | requires m ms as =>
    obtain ⟨notes, encoded, rfl⟩ := first
    obtain ⟨notes', encoded', rfl⟩ := second
    rw [Except.ok.inj (encoded.symm.trans encoded')]
  | exports p ts as =>
    obtain ⟨notes, encoded, rfl⟩ := first
    obtain ⟨notes', encoded', rfl⟩ := second
    rw [Except.ok.inj (encoded.symm.trans encoded')]
  | uses service => exact Except.ok.inj (first.symm.trans second)
  | provides service implementations as =>
    obtain ⟨s, is, notes, service, implementations, encoded, rfl⟩ := first
    obtain ⟨s', is', notes', service', implementations', encoded', rfl⟩ := second
    rw [Except.ok.inj (service.symm.trans service'), Except.ok.inj (implementations.symm.trans implementations'),
      Except.ok.inj (encoded.symm.trans encoded')]
  | stray f => exact first.elim

theorem told_cons (k : DirectiveKind) (d : Directive) (ds : List Directive) :
    told k (d :: ds) = told k [d] ++ told k ds := by
  rw [told, told, told, ← List.filter_append, ofKind, ofKind, ofKind, ← List.filter_append, List.singleton_append]

theorem told_of_isImplied {d : Directive} (implied : d.IsImplied) (k : DirectiveKind) : told k [d] = [] := by
  refine List.filter_eq_nil_iff.2 fun d' member => ?_
  obtain rfl := List.mem_singleton.1 (List.mem_of_mem_filter member)
  simpa using implied

/-- A directive that does not go without saying is in the list of its own kind and in no other. -/
theorem told_of_kind {d : Directive} {own : DirectiveKind} (kind : d.kind? = some own) (told? : ¬ d.IsImplied)
    (k : DirectiveKind) : told k [d] = if own = k then [d] else [] := by
  by_cases same : own = k
  · simp [told, ofKind, kind, same, told?]
  · simp [told, ofKind, kind, same]

/-- What a directive adds to the list of each kind. -/
theorem terms_visit (name : String) (d : Directive) :
    (d.visit name).Ends fun t =>
      ∀ k, List.Forall₂ HasTerm (told k [d]) (t.toList.filterMap (DirectiveTerm.ofKind? k)) := by
  -- a term goes to the list of its directive's kind
  have one {own : DirectiveKind} {u : DirectiveTerm} {t : Term} (kind : d.kind? = some own) (told? : ¬ d.IsImplied)
      (own? : ∀ k, u.ofKind? k = if own = k then some t else none) (term : d.HasTerm t) (k : DirectiveKind) :
      List.Forall₂ HasTerm (told k [d]) ((some u).toList.filterMap (DirectiveTerm.ofKind? k)) := by
    rw [told_of_kind kind told?, Option.toList_some, List.filterMap_cons, own?]
    split
    · exact .cons term .nil
    · exact .nil
  cases d with
  | requires m ms as =>
    rw [visit]
    split
    · next implied =>
      refine ends_pure fun k => ?_
      rw [told_of_isImplied (isImpliedRequirement_iff.1 implied)]
      exact .nil
    · next told? =>
      refine ends_bind fun notes encoded => ends_pure (one rfl (fun implied => ?_) ?_ ⟨notes, encoded, rfl⟩)
      · exact told? (isImpliedRequirement_iff.2 implied)
      · exact fun k => by cases k <;> rfl
  | exports p ts as =>
    refine ends_bind fun notes encoded => ends_pure (one rfl id ?_ ⟨notes, encoded, rfl⟩)
    exact fun k => by cases k <;> rfl
  | uses t =>
    refine ends_bind fun service encoded => ends_pure (one rfl id ?_ encoded)
    exact fun k => by cases k <;> rfl
  | provides t ts as =>
    refine ends_bind fun s service => ends_bind fun is implementations => ends_bind fun notes encoded => ?_
    refine ends_pure (one rfl id ?_ ⟨s, is, notes, service, implementations, encoded, rfl⟩)
    exact fun k => by cases k <;> rfl
  | stray f => exact ends_bind fun _ _ => ends_pure fun k => .nil

/-- The list of each kind has the terms of its directives, in order and one for one. -/
theorem terms_visitList (name : String) (ds : List Directive) :
    (visitList name ds).Ends fun ts =>
      ∀ k, List.Forall₂ HasTerm (told k ds) (ts.filterMap (DirectiveTerm.ofKind? k)) := by
  induction ds with
  | nil => exact ends_pure fun k => .nil
  | cons d ds ih =>
    refine ends_bind fun t here => ends_bind fun ts later => ends_pure fun k => ?_
    rw [told_cons, List.filterMap_append]
    exact List.rel_append (terms_visit name d t here k) (ih ts later k)

/-- Terms that belong one for one to the same directives are the same. -/
theorem terms_unique {ds : List Directive} {ts us : List Term} (first : List.Forall₂ HasTerm ds ts)
    (second : List.Forall₂ HasTerm ds us) : ts = us := by
  induction first generalizing us with
  | nil =>
    cases second
    rfl
  | cons here _ ih =>
    cases second with
    | cons here' later' => rw [here.unique here', ih later']

theorem filterMap_internal?_ofKind (ds : List Directive) :
    (ofKind .exports ds).filterMap internal? = ds.filterMap internal? := by
  rw [ofKind, List.filterMap_filter]
  refine List.filterMap_congr fun d _ => ?_
  cases d <;> rfl

end Directive

theorem Scope.isWritable_module (m : Module) :
    (Scope.module m).isWritable = m.directives.all Directive.isWritable := by
  rw [Scope.isWritable, Scope.shown, List.all_flatMap]
  rfl

namespace Module

/-- The fact of a module, given its lists of terms. -/
def factWith (m : Module) (terms : DirectiveKind → List Term) : Term :=
  .compound "module"
    [.atom m.name, encodeModifiers m.modifiers, .list (terms .requires), .list (terms .exports), .list (terms .uses),
      .list (terms .provides), .list (m.packages.map .atom)]

/-- Modules that differ at most in how directives of different kinds are interleaved. -/
structure SameByKind (m m' : Module) : Prop where
  name : m'.name = m.name
  modifiers : m'.modifiers = m.modifiers
  packages : m'.packages = m.packages
  directives : ∀ k, Directive.ofKind k m'.directives = Directive.ofKind k m.directives

/-- Whether the warnings of what is of no kind can be written. -/
def showsStrays (m : Module) : Bool := (Directive.strays m.directives).all Directive.isWritable

/-- The visit of a module comes to its end if and only if every integer that its fact or a warning shows can be
written. -/
theorem isOk_visit (m : Module) : m.visit.isOk = (Scope.module m).isWritable :=
  Scope.isOk_visit_of_hasTextDocs (s := .module m) rfl false

theorem fact_of_visit {m : Module} {fact : Term} (ended : m.visit.result = .ok fact) :
    ∃ terms, fact = m.factWith terms ∧
      ∀ k, List.Forall₂ Directive.HasTerm (Directive.told k m.directives) (terms k) := by
  obtain ⟨ts, visited, last⟩ := Walk.result_bind_eq_ok.1 ended
  refine ⟨fun k => ts.filterMap (DirectiveTerm.ofKind? k), ?_, Directive.terms_visitList m.name m.directives ts visited⟩
  cases last
  rfl

namespace SameByKind

variable {m m' : Module}

theorem told (same : m.SameByKind m') (k : DirectiveKind) :
    Directive.told k m'.directives = Directive.told k m.directives := by
  rw [Directive.told, same.directives, Directive.told]

theorem symm (same : m.SameByKind m') : m'.SameByKind m :=
  ⟨same.name.symm, same.modifiers.symm, same.packages.symm, fun k => (same.directives k).symm⟩

theorem internal (same : m.SameByKind m') : (Scope.module m').internal = (Scope.module m).internal := by
  rw [Scope.internal, Scope.internal, ← Directive.filterMap_internal?_ofKind, same.directives,
    Directive.filterMap_internal?_ofKind]

theorem isWritable (same : m.SameByKind m') (strays : m'.showsStrays = m.showsStrays) :
    (Scope.module m').isWritable = (Scope.module m).isWritable := by
  have all (n : Module) : (Scope.module n).isWritable = true ↔
      (∀ k, ∀ d ∈ Directive.ofKind k n.directives, d.isWritable = true) ∧ n.showsStrays = true := by
    rw [Scope.isWritable_module, showsStrays, List.all_eq_true, List.all_eq_true]
    constructor
    · intro h
      exact ⟨fun k d member => h d (List.mem_of_mem_filter member), fun d member => h d (List.mem_of_mem_filter member)⟩
    · rintro ⟨kinds, others⟩ d member
      cases kind : d.kind? with
      | some k => exact kinds k d (List.mem_filter.2 ⟨member, decide_eq_true kind⟩)
      | none => exact others d (List.mem_filter.2 ⟨member, decide_eq_true kind⟩)
  rw [Bool.eq_iff_iff, all, all, strays]
  simp only [same.directives]

/-- Visits that come to their end come to the same fact. -/
theorem result_visit_of_ok (same : m.SameByKind m') (ok : m.visit.isOk = true) (ok' : m'.visit.isOk = true) :
    m'.visit.result = m.visit.result := by
  obtain ⟨fact, ended⟩ := Walk.isOk_iff.1 ok
  obtain ⟨fact', ended'⟩ := Walk.isOk_iff.1 ok'
  obtain ⟨terms, rfl, here⟩ := fact_of_visit ended
  obtain ⟨terms', rfl, there⟩ := fact_of_visit ended'
  have terms_eq : terms' = terms := funext fun k => Directive.terms_unique (same.told k ▸ there k) (here k)
  rw [ended, ended', terms_eq, factWith, same.name, same.modifiers, same.packages]
  rfl

/-- Both visits come to the same fact, or both stop at an integer with too many digits. -/
theorem result_visit (same : m.SameByKind m') (strays : m'.showsStrays = m.showsStrays) :
    m'.visit.result = m.visit.result := by
  have both : m'.visit.isOk = m.visit.isOk := by rw [isOk_visit, same.isWritable strays, isOk_visit]
  cases ended : m.visit.result with
  | ok fact =>
    have ok : m.visit.isOk = true := Walk.isOk_iff.2 ⟨fact, ended⟩
    rw [same.result_visit_of_ok ok (both.trans ok), ended]
  | error e =>
    have oversized : e = .oversized := (Scope.module m).onlyOversized_visit e ended
    cases ended' : m'.visit.result with
    | ok fact =>
      rw [Walk.isOk_iff.2 ⟨fact, ended'⟩, Walk.isOk_of_error ended] at both
      cases both
    | error e' =>
      have oversized' : e' = .oversized := (Scope.module m').onlyOversized_visit e' ended'
      rw [oversized, oversized']

end SameByKind

/-- The packages that are internal after the visit of a module that comes to its end. -/
theorem mem_internal_visiting {m : Module} (proper : m.directives.all Directive.isProper = true)
    (writable : (Scope.module m).isWritable = true) (docs : Bool) (before : Trace) (n : String) :
    n ∈ (before.visiting docs (.module m)).index.internal ↔
      n ∈ before.index.internal ∨ ∃ ts as, .exports n ts as ∈ m.directives ∧ ts ≠ [] := by
  rw [Trace.index_visiting (s := .module m) proper rfl, Index.visiting, Index.mem_foldl_addInternal,
    Scope.noted_of_isWritable writable, Scope.internal, List.mem_filterMap]
  refine or_congr_right ⟨?_, ?_⟩
  · rintro ⟨d, member, made⟩
    cases d with
    | exports p ts as =>
      cases ts with
      | nil => cases made
      | cons t ts =>
        cases made
        exact ⟨t :: ts, as, member, List.cons_ne_nil t ts⟩
    | _ => cases made
  · rintro ⟨ts, as, member, some?⟩
    refine ⟨_, member, ?_⟩
    cases ts with
    | nil => exact absurd rfl some?
    | cons t ts => rfl

/-- **The facts of modules.** The visit of a module comes to its end if and only if every integer that its fact or a
warning shows can be written. The fact then has, for each kind of directives, the terms of the directives of that kind
in order and one for one, except requirements that go without saying, and the module's packages in order; and those
packages have become internal that the module exports to some modules only.

So two modules that differ only in how directives of different kinds are interleaved, and in what is of no kind among
them, have the same fact if they have one, and then make the same packages internal. If the warnings of what is of no
kind can be written for both or for neither, both have a fact or neither has. -/
theorem fact_by_kind (m : Module) (docs : Bool) (before : Trace)
    (proper : m.directives.all Directive.isProper = true) :
    (((Scope.module m).visitForm docs).run.run before).1 = m.visit.result.map Except.ok ∧
    m.visit.isOk = (Scope.module m).isWritable ∧
    (∀ fact, m.visit.result = .ok fact →
      (∃ terms, fact = m.factWith terms ∧
        ∀ k, List.Forall₂ Directive.HasTerm (Directive.told k m.directives) (terms k)) ∧
      ∀ n, n ∈ (before.visiting docs (.module m)).index.internal ↔
        n ∈ before.index.internal ∨ ∃ ts as, .exports n ts as ∈ m.directives ∧ ts ≠ []) ∧
    ∀ m', m.SameByKind m' → m'.directives.all Directive.isProper = true →
      (m'.showsStrays = m.showsStrays → m'.visit.result = m.visit.result) ∧
      (m.visit.isOk = true → m'.visit.isOk = true →
        m'.visit.result = m.visit.result ∧
        (before.visiting docs (.module m')).index.internal = (before.visiting docs (.module m)).index.internal) := by
  refine ⟨?_, m.isOk_visit, fun fact ended => ⟨fact_of_visit ended, ?_⟩, fun m' same proper' =>
    ⟨same.result_visit, fun ok ok' => ⟨same.result_visit_of_ok ok ok', ?_⟩⟩⟩
  · rw [Scope.visitForm, Module.run_visit proper]
  · have writable : (Scope.module m).isWritable = true := by rw [← isOk_visit, Walk.isOk_iff.2 ⟨_, ended⟩]
    exact mem_internal_visiting proper writable docs before
  · rw [isOk_visit] at ok ok'
    rw [Trace.index_visiting (s := .module m) proper rfl, Trace.index_visiting (s := .module m') proper' rfl,
      Index.visiting, Index.visiting, Scope.noted_of_isWritable ok, Scope.noted_of_isWritable ok', same.internal]

/-- Directives of all kinds, with both a requirement that goes without saying and one that does not. -/
def mixedSample : Module :=
  { name := "m"
    directives :=
      [.uses (.declared "S" []), .exports "p" ["x"] [], .requires "java.base" ["Mandated"] [],
        .provides (.declared "S" []) [.declared "T" []] [], .requires "java.base" ["STATIC"] [], .exports "q" [] []]
    packages := ["q", "p"] }

/-- The same directives, kind by kind. -/
def groupedSample : Module :=
  { mixedSample with
    directives :=
      Directive.ofKind .requires mixedSample.directives ++ Directive.ofKind .exports mixedSample.directives ++
        Directive.ofKind .uses mixedSample.directives ++ Directive.ofKind .provides mixedSample.directives }

theorem fact_by_kind_mixed :
    (mixedSample.directives.all Directive.isProper = true ∧ groupedSample.directives.all Directive.isProper = true ∧
      mixedSample.SameByKind groupedSample) ∧
    ∃ fact, mixedSample.visit.result = .ok fact ∧ groupedSample.visit.result = .ok fact ∧
      (Trace.visiting true {} (.module groupedSample)).index.internal =
        (Trace.visiting true {} (.module mixedSample)).index.internal := by
  have proper : mixedSample.directives.all Directive.isProper = true := rfl
  have proper' : groupedSample.directives.all Directive.isProper = true := rfl
  have same : mixedSample.SameByKind groupedSample := ⟨rfl, rfl, rfl, fun k => by cases k <;> rfl⟩
  obtain ⟨-, ends, -, others⟩ := fact_by_kind mixedSample true {} proper
  have ok : mixedSample.visit.isOk = true := ends
  obtain ⟨fact, ended⟩ := Walk.isOk_iff.1 ok
  obtain ⟨result, internal⟩ := others groupedSample same proper'
  have same_result := result rfl
  have ok' : groupedSample.visit.isOk = true := by rw [Walk.isOk, same_result]; exact ok
  exact ⟨⟨proper, proper', same⟩, fact, ended, same_result.trans ended, (internal ok ok').2⟩

/-- A requirement with the integer in an annotation. -/
def requiringSample (n : Int) : Directive := .requires "q" [] [{ name := "N", arguments := [("v", .integer n)] }]

/-- A module that makes a package internal in its first directive. -/
def exportFirstSample (n : Int) : Module := { name := "m", directives := [.exports "p" ["x"] [], requiringSample n] }

/-- The same directives the other way round. -/
def exportLastSample (n : Int) : Module := { name := "m", directives := [requiringSample n, .exports "p" ["x"] []] }

theorem isWritable_requiringSample (n : Int) : (requiringSample n).isWritable = Numeral.isWritable n := by
  change (Numeral.isWritable n && true && true) = Numeral.isWritable n
  rw [Bool.and_true, Bool.and_true]

theorem noted_exportFirstSample (n : Int) : (Scope.module (exportFirstSample n)).noted = ["p"] := by
  have written : (Directive.exports "p" ["x"] []).isWritable = true := rfl
  have first : (Directive.exports "p" ["x"] []).internal? = some "p" := rfl
  have none : (requiringSample n).internal? = none := rfl
  simp [Scope.noted, exportFirstSample, Directive.noted, written, first, none]

theorem noted_exportLastSample {n : Int} (oversized : Numeral.isWritable n = false) :
    (Scope.module (exportLastSample n)).noted = [] := by
  have none : (requiringSample n).internal? = none := rfl
  simp [Scope.noted, exportLastSample, Directive.noted, none, isWritable_requiringSample, oversized]

/-- If the integer has too many digits, neither module has a fact, and only that which exports first makes the package
internal. -/
theorem fact_oversized_by_order :
    (exportFirstSample Numeral.writableBound).SameByKind (exportLastSample Numeral.writableBound) ∧
    (exportFirstSample Numeral.writableBound).visit.isOk = false ∧
    (∀ docs, (Trace.visiting docs {} (.module (exportFirstSample Numeral.writableBound))).index.internal = ["p"]) ∧
    ∀ docs, (Trace.visiting docs {} (.module (exportLastSample Numeral.writableBound))).index.internal = [] := by
  have oversized := Numeral.not_isWritable_writableBound
  generalize (Numeral.writableBound : Int) = n at oversized ⊢
  refine ⟨⟨rfl, rfl, rfl, fun k => by cases k <;> rfl⟩, ?_, fun docs => ?_, fun docs => ?_⟩
  · rw [isOk_visit, Scope.isWritable_module]
    simp [exportFirstSample, isWritable_requiringSample, oversized]
  · rw [Trace.index_visiting (s := .module (exportFirstSample n)) rfl rfl, Index.visiting, noted_exportFirstSample]
    rfl
  · rw [Trace.index_visiting (s := .module (exportLastSample n)) rfl rfl, Index.visiting,
      noted_exportLastSample oversized]
    rfl

end Module

end ProgramFacts
