import ProgramFacts.Proofs.Form.MemberSimulation

/-!
# Visits of modules and packages follow walks

The visit of the form of a scope does what the walk of the scope does, and beyond that it changes the index. A scope is
listed at the end of its visit, so one whose visit fails is not. But a module makes packages internal while it goes
through its directives: what those before a failure made internal, and what the failing one did, stays so.
-/

namespace ProgramFacts

open Visit (follows_known follows_field follows_items follows_pure follows_text run_bind_of_ok run_bind_of_error
  after_nothing)
open Walk (ends_pure ends_bind)

/-! ## Scopes as forms -/

def Directive.asForm : Directive → Form
  | .requires m ms as =>
    .record .requires [("module", .text m), ("modifiers", textForms ms), ("annotations", noteForms as)]
  | .exports p ts as =>
    .record .exports [("package", .text p), ("target_modules", textForms ts), ("annotations", noteForms as)]
  | .uses t => .record .uses [("service", t.asForm)]
  | .provides t ts as =>
    .record .provides
      [("service", t.asForm), ("implementations", .tuple (TypeExpr.asForms ts)), ("annotations", noteForms as)]
  | .stray f => f

/-- Whether a form is of a sort that directives are of. -/
def Form.isDirective : Form → Bool
  | .record .requires _ | .record .exports _ | .record .uses _ | .record .provides _ => true
  | _ => false

/-- Whether everything in the directive is what it stands for. -/
def Directive.isProper : Directive → Bool
  | .requires _ _ as | .exports _ _ as => as.all Annotation.isProper
  | .uses t => t.isProper
  | .provides t ts as => t.isProper && TypeExpr.areProper ts && as.all Annotation.isProper
  | .stray f => !f.isDirective

def Module.asForm (m : Module) : Form :=
  .record .module
    [("name", .text m.name), ("modifiers", textForms m.modifiers),
      ("directives", .tuple (m.directives.map Directive.asForm)), ("packages", textForms m.packages)]

def Package.asForm (p : Package) : Form :=
  .record .package
    [("name", .text p.name), ("members", .tuple (Declaration.asForms p.members)),
      ("annotations", noteForms p.annotations), ("doc", p.doc.asForm)]

namespace Scope

/-- Whether everything in the scope is what it stands for. -/
def isProper : Scope → Bool
  | .module m => m.directives.all Directive.isProper
  | .package p => Declaration.areProper p.members

/-- Whether all documentation in the scope is absent or a text. -/
def hasTextDocs (s : Scope) : Bool := s.docs.all Document.isTextOrNull

/-- The visit of the form of a scope. -/
def visitForm (docs : Bool) : Scope → Visit Written
  | .module m => m.asForm.visitModule
  | .package p => p.asForm.visitPackage docs

end Scope

/-! ## Directives -/

/-- Internal packages, with one more. -/
def Form.addInternal (known : List Form) (name : String) : List Form :=
  if known.contains (.text name) then known else known ++ [.text name]

/-- The trace with more packages known to be internal. -/
def Trace.noting (t : Trace) (names : List String) : Trace :=
  { t with internal := names.foldl Form.addInternal t.internal }

theorem Trace.after_bind_of_ok {α β : Type} (t : Trace) {x : Walk α} {a : α} (h : x.result = .ok a) (f : α → Walk β) :
    t.after (x >>= f) [] = (t.after x []).after (f a) [] := by
  rw [Visit.after_after, Walk.bind_of_ok h]
  rfl

theorem Trace.noting_append (t : Trace) (names more : List String) :
    t.noting (names ++ more) = (t.noting names).noting more := by
  rw [Trace.noting, List.foldl_append]
  rfl

namespace Visit

/-- Whether a visit does what a walk does, ends with the value for its result, and makes packages internal. -/
def Learns {α β : Type} (v : Visit β) (w : Walk α) (value : α → β) (names : List String) : Prop :=
  ∀ before, v.run.run before = (w.result.map value, (before.after w []).noting names)

theorem Follows.learns {α β : Type} {v : Visit β} {w : Walk α} {value : α → β}
    (h : v.Follows w value fun _ => []) : v.Learns w value [] := by
  intro before
  rw [h before, given_nothing]
  rfl

/-- A package is made internal before anything else is done. -/
theorem Follows.learns_after {α β : Type} {v : Visit β} {w : Walk α} {value : α → β}
    (h : v.Follows w value fun _ => []) (name : String) :
    (noteInternal (.text name) >>= fun _ => v).Learns w value [name] := by
  intro before
  have noted : (noteInternal (.text name)).run.run before = (.ok (), before.noting [name]) := by
    change (Except.ok (), if before.internal.contains (.text name) then before else _) = _
    rw [Trace.noting, List.foldl_cons, List.foldl_nil, Form.addInternal]
    split <;> rfl
  rw [run_bind_of_ok noted, h, given_nothing]
  rfl

end Visit

/-- The term of a directive, whatever the directive is. -/
def DirectiveTerm.written : DirectiveTerm → Written
  | .requires t | .exports t | .uses t | .provides t => .ok t

theorem notes_annotations {s : FormSort} {fields : List (String × Form)} {as : List Annotation}
    (found : fields.lookup "annotations" = some (noteForms as)) (proper : as.all Annotation.isProper = true) :
    ((Form.record s fields).get "annotations" >>= fun g => g.encodeNotes).Notes (encodeAnnotations as) Except.ok :=
  follows_field found (notes_encodeNotes proper)

theorem mapM_lower_textForms (ms : List String) :
    (ms.map Form.text).mapM Form.lower = (pure (ms.map Text.lower) : Visit (List String)) := by
  induction ms with
  | nil => rfl
  | cons m ms ih =>
    rw [List.map_cons, List.mapM_cons, ih]
    rfl

theorem isImpliedRequirement_asForm (m : String) (ms : List String) (as : List Annotation) :
    (Directive.requires m ms as).asForm.isImpliedRequirement = pure (isImpliedRequirement m ms) := by
  have moduleField : (Directive.requires m ms as).asForm.get "module" = pure (.text m) := rfl
  have modifierField : (Directive.requires m ms as).asForm.itemsOf "modifiers" = pure (ms.map .text) := rfl
  rw [Form.isImpliedRequirement, isImpliedRequirement, moduleField, modifierField, pure_bind, Form.text_beq]
  by_cases base : m = baseModule
  · simp only [base, decide_true, if_true, pure_bind, mapM_lower_textForms, List.any_map, beq_self_eq_true,
      Bool.true_and]
    rfl
  · have other : (m == baseModule) = false := beq_eq_false_iff_ne.2 base
    rw [decide_eq_false base, other]
    rfl

theorem Directive.learns_visit {d : Directive} (proper : d.isProper = true) (name : String) :
    (Form.visitDirective (.text name) d.asForm).Learns (d.visit name) (Option.map DirectiveTerm.written)
      d.internal?.toList := by
  cases d with
  | requires m ms as =>
    rw [Directive.visit]
    refine Visit.Follows.learns (follows_known (isImpliedRequirement_asForm m ms as) ?_)
    split
    · exact follows_pure rfl rfl
    · have lowered : (textForms ms).encodeEach (fun m => do
          let word ← m.lower
          pure (.ok (.atom word))) = pure (.ok (.list ((ms.map Text.lower).map .atom))) := by
        rw [List.map_map]
        exact Form.encodeEach_textForms (fun _ => rfl) ms
      refine follows_field rfl (follows_known lowered (follows_field rfl ?_))
      exact (notes_annotations rfl proper).bind fun ns => follows_pure rfl rfl
  | exports p ts as =>
    have rest : (do
        let names ← (textForms ts).encodeNames
        let notes ← (Directive.exports p ts as).asForm.get "annotations" >>= fun g => g.encodeNotes
        pure (some (Written.compound "exports" [(Form.text p).atom, names, notes])) : Visit (Option Written)).Follows
          ((Directive.exports p ts as).visit name) (Option.map DirectiveTerm.written) fun _ => [] := by
      refine follows_known (encodeNames_textForms ts) ?_
      exact (notes_annotations rfl proper).bind fun ns => follows_pure rfl rfl
    cases ts with
    | nil => exact rest.learns
    | cons t ts => exact rest.learns_after p
  | uses t =>
    refine Visit.Follows.learns (follows_field rfl ?_)
    exact (TypeExpr.notes_encode proper).bind fun s => follows_pure rfl rfl
  | provides t ts as =>
    simp only [Directive.isProper, Bool.and_eq_true] at proper
    refine Visit.Follows.learns (follows_field rfl ((TypeExpr.notes_encode proper.1.1).bind fun s => ?_))
    refine follows_field rfl ((notes_encodeTypes proper.1.2).bind fun is => ?_)
    exact (notes_annotations rfl proper.2).bind fun ns => follows_pure rfl rfl
  | stray f =>
    have skipped : Form.visitDirective (.text name) f = (do
        let shown ← Visit.text f.shown?
        let name ← Visit.text (some name)
        Visit.skip (.directive shown name)
        pure none) := by
      unfold Form.visitDirective
      split
      · cases proper
      · cases proper
      · cases proper
      · cases proper
      · rfl
    rw [Directive.asForm, skipped]
    refine Visit.Follows.learns ((follows_text _).bind fun shown => follows_known (d := name) rfl ?_)
    exact (follows_skip _).map (fun _ => rfl) fun _ => rfl

/-- The terms of the directives of a sort. -/
def Form.termsOf (terms : List (Form × Option Written)) (sort : FormSort) : List Written :=
  (terms.filter (·.1.isOf sort)).filterMap (·.2)

theorem Form.termsOf_append (terms more : List (Form × Option Written)) (sort : FormSort) :
    termsOf (terms ++ more) sort = termsOf terms sort ++ termsOf more sort := by
  rw [termsOf, List.filter_append, List.filterMap_append]
  rfl

theorem Form.termsOf_none (f : Form) (sort : FormSort) : termsOf [(f, none)] sort = [] := by
  rw [termsOf, List.filter_singleton]
  cases f.isOf sort <;> rfl

/-- Terms that are the same in each list of a module's fact, told apart by themselves or by their directives. -/
structure Directive.Sorted (ts : List DirectiveTerm) (terms : List (Form × Option Written)) : Prop where
  requires : Form.termsOf terms .requires = (ts.filterMap (·.requires?)).map Except.ok
  exports : Form.termsOf terms .exports = (ts.filterMap (·.exports?)).map Except.ok
  uses : Form.termsOf terms .uses = (ts.filterMap (·.uses?)).map Except.ok
  provides : Form.termsOf terms .provides = (ts.filterMap (·.provides?)).map Except.ok

theorem Directive.Sorted.append {ts us : List DirectiveTerm} {terms more : List (Form × Option Written)}
    (first : Sorted ts terms) (next : Sorted us more) : Sorted (ts ++ us) (terms ++ more) := by
  constructor
  · rw [Form.termsOf_append, first.requires, next.requires, List.filterMap_append, List.map_append]
  · rw [Form.termsOf_append, first.exports, next.exports, List.filterMap_append, List.map_append]
  · rw [Form.termsOf_append, first.uses, next.uses, List.filterMap_append, List.map_append]
  · rw [Form.termsOf_append, first.provides, next.provides, List.filterMap_append, List.map_append]

theorem Directive.sorted_none (f : Form) : Sorted [] [(f, none)] :=
  ⟨Form.termsOf_none f _, Form.termsOf_none f _, Form.termsOf_none f _, Form.termsOf_none f _⟩

/-- The term of a directive goes where the directive belongs. -/
theorem Directive.term_sorted (name : String) (d : Directive) :
    (d.visit name).Ends fun t => Sorted t.toList [(d.asForm, t.map DirectiveTerm.written)] := by
  cases d with
  | requires m ms as =>
    rw [Directive.visit]
    split
    · exact ends_pure (sorted_none _)
    · exact ends_bind fun notes _ => ends_pure ⟨rfl, rfl, rfl, rfl⟩
  | exports p ts as => exact ends_bind fun notes _ => ends_pure ⟨rfl, rfl, rfl, rfl⟩
  | uses t => exact ends_bind fun service _ => ends_pure ⟨rfl, rfl, rfl, rfl⟩
  | provides t ts as =>
    refine ends_bind fun service _ => ends_bind fun implementations _ => ends_bind fun notes _ => ?_
    exact ends_pure ⟨rfl, rfl, rfl, rfl⟩
  | stray f => exact ends_bind fun _ _ => ends_pure (sorted_none f)

/-- Whether every integer that the terms of a directive show can be written. -/
def Directive.isWritable (d : Directive) : Bool := d.shown.all Shown.isWritable

/-- The packages that directives make internal until one of them cannot be written, which does so as well. -/
def Directive.noted : List Directive → List String
  | [] => []
  | d :: ds => d.internal?.toList ++ if d.isWritable then noted ds else []

/-- Visits directives in order, each with its form. -/
def Form.visitDirectives (name : String) (ds : List Directive) : Visit (List (Form × Option Written)) :=
  (ds.map Directive.asForm).mapM fun f => do
    let term ← visitDirective (.text name) f
    pure (f, term)

theorem Form.visitDirectives_cons (name : String) (d : Directive) (ds : List Directive) :
    visitDirectives name (d :: ds) = (do
      let term ← visitDirective (.text name) d.asForm
      let terms ← visitDirectives name ds
      pure ((d.asForm, term) :: terms)) := by
  rw [visitDirectives, List.map_cons, List.mapM_cons, bind_assoc]
  rfl

theorem Directive.run_visitDirectives {ds : List Directive} (proper : ds.all Directive.isProper = true)
    (name : String) (before : Trace) :
    ∃ terms, (Form.visitDirectives name ds).run.run before =
        ((visitList name ds).result.map fun _ => terms, (before.after (visitList name ds) []).noting (noted ds)) ∧
      (visitList name ds).Ends (Sorted · terms) := by
  induction ds generalizing before with
  | nil =>
    have unchanged : before.after (visitList name []) [] = before := after_nothing before _
    rw [unchanged]
    exact ⟨[], rfl, ends_pure ⟨rfl, rfl, rfl, rfl⟩⟩
  | cons d ds ih =>
    rw [List.all_cons, Bool.and_eq_true] at proper
    have here := learns_visit proper.1 name before
    have ends : (d.visit name).isOk = d.isWritable := isOk_visit name d
    rw [Form.visitDirectives_cons, visitList, noted, Trace.noting_append, ← ends]
    cases result : (d.visit name).result with
    | error e =>
      rw [result] at here
      rw [run_bind_of_error here, Walk.bind_of_error result, Walk.isOk_of_error result]
      exact ⟨[], rfl, fun ts impossible => by cases impossible⟩
    | ok t =>
      rw [result] at here
      obtain ⟨terms, ran, sorted⟩ := ih proper.2 ((before.after (d.visit name) []).noting d.internal?.toList)
      rw [run_bind_of_ok here, Trace.after_bind_of_ok before result, Walk.bind_of_ok result,
        Walk.isOk_iff.2 ⟨t, result⟩, if_pos rfl]
      cases rest : (visitList name ds).result with
      | error e =>
        rw [rest] at ran
        rw [run_bind_of_error ran, Walk.bind_of_error rest]
        exact ⟨[], rfl, fun ts impossible => by cases impossible⟩
      | ok ts =>
        have unchanged (u : Trace) : u.after (pure (t.toList ++ ts) : Walk _) [] = u := after_nothing u _
        rw [rest] at ran
        rw [run_bind_of_ok ran, Trace.after_bind_of_ok _ rest, unchanged, Walk.bind_of_ok rest]
        refine ⟨(d.asForm, t.map DirectiveTerm.written) :: terms, rfl, fun all both => ?_⟩
        cases both
        exact (term_sorted name d t result).append (sorted ts rest)

/-! ## Modules -/

/-- The names that are listed for a visit that came to its end. -/
def Walk.listing {α : Type} (w : Walk α) (name : String) : List String := if w.isOk then [name] else []

/-- **Visits of modules follow walks.** A module that can be written is listed, and what its directives make internal
is so from then on. -/
theorem Module.run_visit {m : Module} (proper : m.directives.all Directive.isProper = true) (before : Trace) :
    m.asForm.visitModule.run.run before =
      (m.visit.result.map Except.ok,
        { (before.after m.visit []).noting (Directive.noted m.directives) with
          modules := before.modules ++ m.visit.listing m.name }) := by
  obtain ⟨terms, ran, sorted⟩ := Directive.run_visitDirectives proper m.name before
  have start : m.asForm.visitModule =
      (Form.visitDirectives m.name m.directives >>= fun terms => do
        let modifiers ← (textForms m.modifiers).encodeModifiers
        let packages ← (textForms m.packages).encodeNames
        let fact := Written.compound "module"
          [.ok (.atom m.name), modifiers, .list (Form.termsOf terms .requires), .list (Form.termsOf terms .exports),
            .list (Form.termsOf terms .uses), .list (Form.termsOf terms .provides), packages]
        Visit.write (.module m.name) fact
        modify fun t => { t with modules := t.modules ++ [m.name] }
        Visit.count { modules := 1 }
        pure fact) := rfl
  rw [start, Module.visit]
  cases result : (Directive.visitList m.name m.directives).result with
  | error e =>
    rw [result] at ran
    rw [run_bind_of_error ran, Walk.bind_of_error result, Walk.listing, Walk.isOk_of_error rfl]
    simp only [Bool.false_eq_true, if_false, List.append_nil]
    rfl
  | ok ts =>
    obtain ⟨requires, exports, uses, provides⟩ := sorted ts result
    rw [result] at ran
    rw [run_bind_of_ok ran, requires, exports, uses, provides, Trace.after_bind_of_ok before result,
      Walk.bind_of_ok result]
    simp only [encodeModifiers_textForms, encodeNames_textForms, pure_bind, Written.list_ok]
    simp only [Trace.after, List.append_nil]
    rfl

/-! ## Packages -/

theorem fills_visitMembers (docs : Bool) (package : String) {ds : List Declaration}
    (proper : Declaration.areProper ds = true) (text : (Declaration.docsIn ds).all Document.isTextOrNull = true) :
    ((Declaration.asForms ds).forM (Form.visitMember docs (.text package))).Fills (visitMembers docs package ds) := by
  induction ds with
  | nil =>
    rw [visitMembers]
    exact Visit.fills_nothing
  | cons d ds ih =>
    rw [Declaration.areProper, Bool.and_eq_true] at proper
    obtain ⟨first, others⟩ := Declaration.docsIn_all text
    rw [visitMembers]
    exact Visit.Fills.cons (follows_visitMember docs package proper.1 first) (ih proper.2 others)

theorem follows_visitPackageMember (docs : Bool) (package : String) {d : Declaration} (proper : d.isProper = true)
    (text : d.hasTextDocs = true) :
    (Form.visitPackageMember docs (.text package) d.asForm).Follows (visitPackageMember docs package d)
      (fun _ => ()) contributed := by
  cases d with
  | ofType t ds =>
    rw [Declaration.isProper, Bool.and_eq_true] at proper
    rw [Declaration.hasTextDocs_ofType] at text
    have filled := fills_visitMembers docs package proper.2 text.2
    have visited := TypeHead.follows_visitWith proper.1 text.1 docs package filled
    rw [visitPackageMember]
    exact visited.map (fun _ => rfl) fun _ => rfl
  | ofExecutable e => exact follows_skip_member _
  | ofVariable v => exact follows_skip_member _
  | stray f =>
    have other : f.isOf .type = false := by
      cases f with
      | record sort fields => cases sort <;> first | rfl | cases proper
      | _ => rfl
    rw [Declaration.asForm, Form.visitPackageMember, other, visitPackageMember]
    · refine (follows_text _).bind fun shown => follows_known (d := package) rfl ?_
      exact follows_skip_member _
    · exact fun _ _ impossible => by cases impossible

theorem fills_visitPackageMembers (docs : Bool) (package : String) {ds : List Declaration}
    (proper : Declaration.areProper ds = true) (text : (Declaration.docsIn ds).all Document.isTextOrNull = true) :
    ((Declaration.asForms ds).forM (Form.visitPackageMember docs (.text package))).Fills
      (visitPackageMembers docs package ds) := by
  induction ds with
  | nil => exact Visit.fills_nothing
  | cons d ds ih =>
    rw [Declaration.areProper, Bool.and_eq_true] at proper
    obtain ⟨first, others⟩ := Declaration.docsIn_all text
    exact Visit.Fills.cons (follows_visitPackageMember docs package proper.1 first) (ih proper.2 others)

/-- The trace with a package listed, unless it is known to be internal. -/
theorem Trace.list_package (t : Trace) (name : String) :
    (if t.isInternal (.text name) then t else { t with packages := t.packages ++ [name] }) =
      { t with packages := t.packages ++ if t.isInternal (.text name) then [] else [name] } := by
  split
  · rw [List.append_nil]
  · rfl

/-- **Visits of packages follow walks.** A package that can be written is listed unless it is known to be internal. -/
theorem Package.run_visit {p : Package} (proper : Declaration.areProper p.members = true)
    (text : (Declaration.docsIn p.members).all Document.isTextOrNull = true) (docs : Bool) (before : Trace) :
    (p.asForm.visitPackage docs).run.run before =
      ((p.visit docs).result.map Except.ok,
        { before.after (p.visit docs) [] with
          packages := before.packages ++
            if before.isInternal (.text p.name) then [] else (p.visit docs).listing p.name }) := by
  have filled := (fills_visitPackageMembers docs p.name proper text).inScope before
  have start : p.asForm.visitPackage docs =
      (Visit.inScope ((Declaration.asForms p.members).forM (Form.visitPackageMember docs (.text p.name))) >>=
        fun members => do
          let fact := Written.compound "package_declaration" [.ok (.atom p.name), .list members]
          Visit.write (.package p.name) fact
          modify fun t => if t.isInternal (.text p.name) then t else { t with packages := t.packages ++ [p.name] }
          Visit.count { packages := 1 }
          pure fact) := rfl
  rw [Visit.given_nothing] at filled
  rw [start, Package.visit]
  cases result : (visitPackageMembers docs p.name p.members).result with
  | error e =>
    rw [result] at filled
    rw [run_bind_of_error filled, Walk.bind_of_error result, Walk.listing, Walk.isOk_of_error rfl]
    simp only [Bool.false_eq_true, if_false, ite_self, List.append_nil]
    rfl
  | ok ms =>
    rw [result] at filled
    rw [run_bind_of_ok filled, Trace.after_bind_of_ok before result, Walk.bind_of_ok result]
    simp only [Trace.list_package, Written.list_ok, Trace.after, List.append_nil]
    rfl

end ProgramFacts
