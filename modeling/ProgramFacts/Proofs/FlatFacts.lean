import ProgramFacts.Proofs.Confinement
import ProgramFacts.Proofs.FlatTerms
import ProgramFacts.Proofs.Scripts

/-!
# Facts on one line

If all texts of a program but its documentation are flat, so are its facts, since each of their parts is. What the walk
writes is the fact of a subject, and what the index lists are names. A run on one line therefore writes files that end
with the only line feed in them, whatever the documentation is.
-/

namespace ProgramFacts

open Text
open Term (isFlat_atom isFlat_list isFlat_compound)

/-! ## Members and types -/

open Walk (ends_ofNoted ends_bind)

theorem Executable.visit_flat (docs : Bool) {e : Executable} (flat : AreFlat e.strings) :
    (e.visit docs).Ends fun m => ∀ t ∈ m, t.IsFlat := by
  simp only [Executable.strings, areFlat_cons, areFlat_append, areFlat_flatMap, and_assoc] at flat
  obtain ⟨-, name, modifiers, typeParameters, returnType, parameters, thrown, notes⟩ := flat
  have hm := encodeModifiers_flat modifiers
  rw [Executable.visit]
  split
  · refine ends_ofNoted (encodeTypeParameters_flat typeParameters) fun _ htp => ?_
    refine ends_ofNoted (e.returnType.encode_flat returnType) fun _ hr => ?_
    refine ends_ofNoted (encodeParameters_flat parameters) fun _ hp => ?_
    refine ends_ofNoted (encodeThrows_flat thrown) fun _ ht => ?_
    refine ends_ofNoted (encodeAnnotations_flat notes) fun _ hn => ends_bind fun doc ended => ?_
    have hd := encodeDoc_flat docs e.doc doc ended
    refine ends_bind fun _ _ => Walk.ends_pure fun t same => ?_
    cases same
    exact isFlat_compound (by simp [isBreak]) (by simp [isFlat_atom name, hm, htp, hr, hp, ht, hn, hd])
  · split
    · refine ends_ofNoted (encodeTypeParameters_flat typeParameters) fun _ htp => ?_
      refine ends_ofNoted (encodeParameters_flat parameters) fun _ hp => ?_
      refine ends_ofNoted (encodeThrows_flat thrown) fun _ ht => ?_
      refine ends_ofNoted (encodeAnnotations_flat notes) fun _ hn => ends_bind fun doc ended => ?_
      have hd := encodeDoc_flat docs e.doc doc ended
      refine ends_bind fun _ _ => Walk.ends_pure fun t same => ?_
      cases same
      exact isFlat_compound (by simp [isBreak]) (by simp [isFlat_atom name, hm, htp, hp, ht, hn, hd])
    · exact ends_bind fun _ _ => Walk.ends_pure (by simp)

theorem Variable.visit_flat (docs : Bool) {v : Variable} (flat : AreFlat v.strings) :
    (v.visit docs).Ends fun m => ∀ t ∈ m, t.IsFlat := by
  simp only [Variable.strings, areFlat_cons, areFlat_append, areFlat_flatMap, and_assoc] at flat
  obtain ⟨-, name, type, modifiers, notes⟩ := flat
  have hm := encodeModifiers_flat modifiers
  rw [Variable.visit]
  split
  · exact Walk.ends_pure (by simp)
  · split
    · refine ends_ofNoted (v.type.encode_flat type) fun _ ht => ?_
      refine ends_ofNoted (encodeAnnotations_flat notes) fun _ hn => ends_bind fun doc ended => ?_
      have hd := encodeDoc_flat docs v.doc doc ended
      refine ends_bind fun _ _ => Walk.ends_pure fun t same => ?_
      cases same
      exact isFlat_compound (by simp [isBreak]) (by simp [isFlat_atom name, hm, ht, hn, hd])
    · exact ends_bind fun _ _ => Walk.ends_pure (by simp)

theorem TypeHead.marker_flat {t : TypeHead} (flat : AreFlat t.strings) : t.marker.IsFlat := by
  simp only [TypeHead.strings, areFlat_cons] at flat
  exact isFlat_compound (by simp [isBreak]) (by simp [isFlat_atom flat.1, isFlat_atom flat.2.1])

theorem visitMember_flat (docs : Bool) (package : String) {d : Declaration} (flat : AreFlat d.strings) :
    (visitMember docs package d).Ends fun m => ∀ t ∈ m, t.IsFlat := by
  cases d with
  | ofType t ds =>
    rw [Declaration.strings, areFlat_append] at flat
    intro m ended u member
    rw [visitMember_ofType_ends docs package t ds m ended u member]
    exact t.marker_flat flat.1
  | ofExecutable e =>
    rw [Declaration.strings] at flat
    rw [visitMember]
    exact e.visit_flat docs flat
  | ofVariable v =>
    rw [Declaration.strings] at flat
    rw [visitMember]
    exact v.visit_flat docs flat
  | stray f =>
    rw [visitMember]
    exact ends_bind fun _ _ => Walk.ends_pure (by simp)

theorem visitMembers_flat (docs : Bool) (package : String) {ds : List Declaration}
    (flat : AreFlat (Declaration.stringsIn ds)) :
    (visitMembers docs package ds).Ends fun ms => ∀ t ∈ ms, t.IsFlat := by
  induction ds with
  | nil =>
    rw [visitMembers]
    exact Walk.ends_pure (by simp)
  | cons d ds ih =>
    rw [Declaration.stringsIn, areFlat_append] at flat
    rw [visitMembers]
    exact Walk.ends_toList_append (visitMember_flat docs package flat.1) (ih flat.2)

theorem TypeHead.fact_flat (docs : Bool) {package : String} (owner : IsFlat package.toList) {t : TypeHead}
    (flat : AreFlat t.strings) {ms : List Term} (members : ∀ m ∈ ms, m.IsFlat) (shape : TypeShape) :
    (t.fact docs package ms shape).Ends Term.IsFlat := by
  simp only [TypeHead.strings, areFlat_cons, areFlat_append, areFlat_flatMap, and_assoc] at flat
  obtain ⟨-, name, modifiers, typeParameters, superclass, interfaces, permitted, components, notes⟩ := flat
  have hm := encodeModifiers_flat modifiers
  have hs := isFlat_list members
  have ha := isFlat_atom name
  have ho := isFlat_atom owner
  cases shape with
  | classType =>
    refine ends_ofNoted (encodeTypeParameters_flat typeParameters) fun _ htp => ?_
    refine ends_ofNoted (encodeExtends_flat superclass) fun _ he => ?_
    refine ends_ofNoted (encodeImplements_flat interfaces) fun _ hi => ?_
    refine ends_ofNoted (encodeAnnotations_flat notes) fun _ hn => ends_bind fun doc ended => ?_
    have hd := encodeDoc_flat docs t.doc doc ended
    have hp := atoms_flat permitted
    exact Walk.ends_pure (isFlat_compound (by simp [isBreak]) (by simp [ha, ho, hm, htp, he, hi, hp, hs, hn, hd]))
  | interface =>
    refine ends_ofNoted (encodeTypeParameters_flat typeParameters) fun _ htp => ?_
    refine ends_ofNoted (encodeImplements_flat interfaces) fun _ hi => ?_
    refine ends_ofNoted (encodeAnnotations_flat notes) fun _ hn => ends_bind fun doc ended => ?_
    have hd := encodeDoc_flat docs t.doc doc ended
    have hp : (Term.list (t.permitted.map (declaredTerm · []))).IsFlat := by
      refine isFlat_list fun u member => ?_
      obtain ⟨n, listed, rfl⟩ := List.mem_map.1 member
      exact declaredTerm_flat (permitted n listed) (by simp)
    exact Walk.ends_pure (isFlat_compound (by simp [isBreak]) (by simp [ha, ho, hm, htp, hi, hp, hs, hn, hd]))
  | enumeration =>
    refine ends_ofNoted (encodeImplements_flat interfaces) fun _ hi => ?_
    refine ends_ofNoted (encodeAnnotations_flat notes) fun _ hn => ends_bind fun doc ended => ?_
    have hd := encodeDoc_flat docs t.doc doc ended
    exact Walk.ends_pure (isFlat_compound (by simp [isBreak]) (by simp [ha, ho, hm, hi, hs, hn, hd]))
  | annotationType =>
    refine ends_ofNoted (encodeAnnotations_flat notes) fun _ hn => ends_bind fun doc ended => ?_
    have hd := encodeDoc_flat docs t.doc doc ended
    exact Walk.ends_pure (isFlat_compound (by simp [isBreak]) (by simp [ha, ho, hm, hn, hd]))
  | record =>
    refine ends_ofNoted (encodeTypeParameters_flat typeParameters) fun _ htp => ?_
    refine ends_ofNoted (encodeImplements_flat interfaces) fun _ hi => ?_
    refine ends_ofNoted (encodeComponents_flat components) fun _ hc => ?_
    refine ends_ofNoted (encodeAnnotations_flat notes) fun _ hn => ends_bind fun doc ended => ?_
    have hd := encodeDoc_flat docs t.doc doc ended
    exact Walk.ends_pure (isFlat_compound (by simp [isBreak]) (by simp [ha, ho, hm, htp, hi, hc, hs, hn, hd]))

/-! ## Modules and packages -/

/-- The term, whatever list of a module's fact it goes to. -/
def DirectiveTerm.term : DirectiveTerm → Term
  | .requires t | .exports t | .uses t | .provides t => t

theorem Directive.visit_flat (moduleName : String) {d : Directive} (flat : AreFlat d.strings) :
    (d.visit moduleName).Ends fun t => ∀ u ∈ t, u.term.IsFlat := by
  cases d with
  | requires m ms as =>
    simp only [Directive.strings, areFlat_cons, areFlat_append, areFlat_flatMap] at flat
    obtain ⟨name, modifiers, notes⟩ := flat
    have lowered : AreFlat (ms.map Text.lower) := by
      intro l member
      obtain ⟨m, listed, rfl⟩ := List.mem_map.1 member
      exact isFlat_lower (modifiers m listed)
    rw [Directive.visit]
    split
    · exact Walk.ends_pure (by simp)
    · refine ends_ofNoted (encodeAnnotations_flat notes) fun _ hn => Walk.ends_pure fun u same => ?_
      cases same
      exact isFlat_compound (by simp [isBreak]) (by simp [atoms_flat lowered, isFlat_atom name, hn])
  | exports p ts as =>
    simp only [Directive.strings, areFlat_cons, areFlat_append, areFlat_flatMap] at flat
    obtain ⟨name, targets, notes⟩ := flat
    refine ends_ofNoted (encodeAnnotations_flat notes) fun _ hn => Walk.ends_pure fun u same => ?_
    cases same
    exact isFlat_compound (by simp [isBreak]) (by simp [isFlat_atom name, atoms_flat targets, hn])
  | uses t =>
    rw [Directive.strings] at flat
    refine ends_ofNoted (t.encode_flat flat) fun _ hs => Walk.ends_pure fun u same => ?_
    cases same
    exact hs
  | provides t ts as =>
    simp only [Directive.strings, areFlat_append, areFlat_flatMap, and_assoc] at flat
    obtain ⟨service, implementations, notes⟩ := flat
    refine ends_ofNoted (t.encode_flat service) fun _ hs => ?_
    refine ends_ofNoted (encodeTypes_flat implementations) fun _ ht => ?_
    refine ends_ofNoted (encodeAnnotations_flat notes) fun _ hn => Walk.ends_pure fun u same => ?_
    cases same
    exact isFlat_compound (by simp [isBreak]) (by simp [hs, ht, hn])
  | stray f => exact ends_bind fun _ _ => Walk.ends_pure (by simp)

theorem Directive.visitList_flat (moduleName : String) {ds : List Directive} (flat : ∀ d ∈ ds, AreFlat d.strings) :
    (Directive.visitList moduleName ds).Ends fun ts => ∀ t ∈ ts, t.term.IsFlat := by
  induction ds with
  | nil => exact Walk.ends_pure (by simp)
  | cons d ds ih =>
    obtain ⟨first, others⟩ := List.forall_mem_cons.1 flat
    exact Walk.ends_toList_append (Directive.visit_flat moduleName first) (ih others)

/-- The terms that go to one of the lists of a module's fact. -/
theorem DirectiveTerm.list_flat {ts : List DirectiveTerm} (flat : ∀ t ∈ ts, t.term.IsFlat)
    {part : DirectiveTerm → Option Term} (own : ∀ (t : DirectiveTerm) (u : Term), part t = some u → t.term = u) :
    (Term.list (ts.filterMap part)).IsFlat := by
  refine isFlat_list fun u member => ?_
  obtain ⟨t, listed, same⟩ := List.mem_filterMap.1 member
  rw [← own t u same]
  exact flat t listed

theorem Module.visit_flat {m : Module} (flat : AreFlat m.strings) : m.visit.Ends Term.IsFlat := by
  simp only [Module.strings, areFlat_cons, areFlat_append, areFlat_flatMap, and_assoc] at flat
  obtain ⟨name, modifiers, directives, packages⟩ := flat
  rw [Module.visit]
  refine ends_bind fun ds ended => ends_bind fun _ _ => ends_bind fun _ _ => Walk.ends_pure ?_
  have each := Directive.visitList_flat m.name directives ds ended
  have hr : (Term.list (ds.filterMap (·.requires?))).IsFlat :=
    DirectiveTerm.list_flat each fun t u same => by cases t <;> cases same; rfl
  have he : (Term.list (ds.filterMap (·.exports?))).IsFlat :=
    DirectiveTerm.list_flat each fun t u same => by cases t <;> cases same; rfl
  have hu : (Term.list (ds.filterMap (·.uses?))).IsFlat :=
    DirectiveTerm.list_flat each fun t u same => by cases t <;> cases same; rfl
  have hv : (Term.list (ds.filterMap (·.provides?))).IsFlat :=
    DirectiveTerm.list_flat each fun t u same => by cases t <;> cases same; rfl
  exact isFlat_compound (by simp [isBreak])
    (by simp [isFlat_atom name, encodeModifiers_flat modifiers, hr, he, hu, hv, atoms_flat packages])

theorem visitPackageMembers_flat (docs : Bool) (package : String) {ds : List Declaration}
    (flat : AreFlat (Declaration.stringsIn ds)) :
    (visitPackageMembers docs package ds).Ends fun ms => ∀ t ∈ ms, t.IsFlat := by
  induction ds with
  | nil => exact Walk.ends_pure (by simp)
  | cons d ds ih =>
    rw [Declaration.stringsIn, areFlat_append] at flat
    have first : (visitPackageMember docs package d).Ends fun m => ∀ t ∈ m, t.IsFlat := by
      cases d with
      | ofType t members =>
        rw [visitPackageMember_ofType]
        exact visitMember_flat docs package flat.1
      | ofExecutable e => exact ends_bind fun _ _ => Walk.ends_pure (by simp)
      | ofVariable v => exact ends_bind fun _ _ => Walk.ends_pure (by simp)
      | stray f => exact ends_bind fun _ _ => Walk.ends_pure (by simp)
    exact Walk.ends_toList_append first (ih flat.2)

theorem Package.visit_flat (docs : Bool) {p : Package} (flat : AreFlat p.strings) :
    (p.visit docs).Ends Term.IsFlat := by
  simp only [Package.strings, areFlat_cons, areFlat_append] at flat
  obtain ⟨name, members, -⟩ := flat
  rw [Package.visit]
  refine ends_bind fun ms ended => ends_bind fun _ _ => ends_bind fun _ _ => Walk.ends_pure ?_
  have each := visitPackageMembers_flat docs p.name members ms ended
  exact isFlat_compound (by simp [isBreak]) (by simp [isFlat_atom name, isFlat_list each])

/-! ## All facts of a program -/

def Subject.strings : Subject → List String
  | .module m => m.strings
  | .type owner t ds => owner :: (t.strings ++ Declaration.stringsIn ds)
  | .package p => p.strings

theorem Subject.fact_flat {docs : Bool} {s : Subject} {f : Term} (flat : AreFlat s.strings)
    (fact : s.HasFact docs f) : f.IsFlat := by
  cases s with
  | module m => exact m.visit_flat flat f fact
  | package p => exact p.visit_flat docs flat f fact
  | type package t ds =>
    simp only [Subject.strings, areFlat_cons, areFlat_append] at flat
    obtain ⟨owner, own, members⟩ := flat
    rcases TypeHead.visitWith_eq_ok fact with ⟨-, impossible⟩ | ⟨shape, ms, g, -, walked, built, same⟩
    · cases impossible
    · cases same
      exact t.fact_flat docs owner own (visitMembers_flat docs package members ms walked) shape f built

mutual

theorem Declaration.flat_types : ∀ d : Declaration, AreFlat d.strings →
    ∀ e ∈ d.types, AreFlat e.1.strings ∧ AreFlat (Declaration.stringsIn e.2)
  | .ofType t ds, flat => by
    rw [Declaration.strings, areFlat_append] at flat
    rw [Declaration.types]
    split
    · intro e member
      rcases List.mem_append.1 member with inner | own
      · exact Declaration.flat_typesIn ds flat.2 e inner
      · rw [List.mem_singleton.1 own]
        exact flat
    · simp
  | .ofExecutable _, _ => by simp [Declaration.types]
  | .ofVariable _, _ => by simp [Declaration.types]
  | .stray _, _ => by simp [Declaration.types]

theorem Declaration.flat_typesIn : ∀ ds : List Declaration, AreFlat (Declaration.stringsIn ds) →
    ∀ e ∈ Declaration.typesIn ds, AreFlat e.1.strings ∧ AreFlat (Declaration.stringsIn e.2)
  | [], _ => by simp [Declaration.typesIn]
  | d :: ds, flat => by
    rw [Declaration.stringsIn, areFlat_append] at flat
    rw [Declaration.typesIn, List.forall_mem_append]
    exact ⟨Declaration.flat_types d flat.1, Declaration.flat_typesIn ds flat.2⟩

end

theorem Package.flat_subjects {p : Package} (flat : AreFlat p.strings) : ∀ s ∈ p.subjects, AreFlat s.strings := by
  intro s member
  rcases List.mem_append.1 member with inner | own
  · simp only [Package.strings, areFlat_cons, areFlat_append] at flat
    obtain ⟨e, listed, rfl⟩ := List.mem_map.1 inner
    obtain ⟨head, members⟩ := Declaration.flat_typesIn p.members flat.2.1 e listed
    simp [Subject.strings, flat.1, head, members]
  · rw [List.mem_singleton.1 own]
    exact flat

theorem Program.flat_subjects {p : Program} (flat : AreFlat p.strings) : ∀ s ∈ p.subjects, AreFlat s.strings := by
  simp only [Program.strings, areFlat_append, areFlat_flatMap] at flat
  intro s member
  rcases List.mem_append.1 member with ofModule | ofPackage
  · obtain ⟨m, listed, rfl⟩ := List.mem_map.1 ofModule
    exact flat.1 m listed
  · obtain ⟨q, listed, within⟩ := List.mem_flatMap.1 ofPackage
    exact Package.flat_subjects (flat.2 q listed) s within

def Scope.name : Scope → String
  | .module m => m.name
  | .package p => p.name

/-- What an index lists are names of scopes. -/
theorem Index.flat_foldl_enter {ss : List Scope} {i : Index} (modules : AreFlat i.modules)
    (packages : AreFlat i.packages) (names : ∀ s ∈ ss, IsFlat s.name.toList) :
    AreFlat (ss.foldl Index.enter i).modules ∧ AreFlat (ss.foldl Index.enter i).packages := by
  induction ss generalizing i with
  | nil => exact ⟨modules, packages⟩
  | cons s ss ih =>
    obtain ⟨own, others⟩ := List.forall_mem_cons.1 names
    have single : AreFlat [s.name] := by simp [own]
    cases s with
    | module m => exact ih (areFlat_append.2 ⟨modules, single⟩) packages others
    | package p =>
      rw [List.foldl_cons, Index.enter]
      split
      · exact ih modules packages others
      · exact ih modules (areFlat_append.2 ⟨packages, single⟩) others

theorem Program.flat_scopes {p : Program} (flat : AreFlat p.strings) : ∀ s ∈ p.scopes, IsFlat s.name.toList := by
  simp only [Program.strings, areFlat_append, areFlat_flatMap] at flat
  intro s member
  rcases List.mem_append.1 member with ofModule | ofPackage
  · obtain ⟨m, listed, rfl⟩ := List.mem_map.1 ofModule
    exact (areFlat_cons.1 (flat.1 m listed)).1
  · obtain ⟨q, listed, rfl⟩ := List.mem_map.1 ofPackage
    exact (areFlat_cons.1 (flat.2 q listed)).1

theorem Index.facts_flat {i : Index} (modules : AreFlat i.modules) (packages : AreFlat i.packages) :
    ∀ o ∈ i.facts, o.2.IsFlat := by
  have moduleFact : i.moduleFact.IsFlat := isFlat_compound (by simp [isBreak]) (by simp [atoms_flat modules])
  have packageFact : i.packageFact.IsFlat := isFlat_compound (by simp [isBreak]) (by simp [atoms_flat packages])
  intro o member
  rcases List.mem_append.1 member with ofModules | ofPackages
  · split at ofModules
    · cases ofModules
    · rwa [List.mem_singleton.1 ofModules]
  · rwa [List.mem_singleton.1 ofPackages]

/-- All facts that a walk hands on to be written are flat. -/
theorem Program.outputs_flat {p : Program} (flat : AreFlat p.strings) (docs : Bool) :
    ∀ o ∈ (p.walk docs).outputs, o.2.IsFlat := by
  intro o member
  rcases List.mem_append.1 member with written | indexed
  · obtain ⟨call, listed, rfl⟩ := List.mem_map.1 written
    obtain ⟨done, rest, split, wrote, -⟩ := Program.walk_answers docs p
    obtain ⟨s, begun, -, fact⟩ := Subject.of_mem_writes wrote listed
    refine Subject.fact_flat (Program.flat_subjects flat s ?_) fact
    rw [split]
    exact List.mem_append_left _ begun
  · cases ended : (p.walk docs).result with
    | error e => simp [ended] at indexed
    | ok i =>
      have names := Index.flat_foldl_enter (i := {}) areFlat_nil areFlat_nil (Program.flat_scopes flat)
      rw [← walkScopes_eq_ok ended] at names
      simp only [ended] at indexed
      exact Index.facts_flat names.1 names.2 o indexed

/-! ## Files of one line -/

/-- Whether the text is one line: it ends with a line feed, which is its only line end. -/
def Text.IsLine (s : String) : Prop :=
  s.toList.count '\n' = 1 ∧ s.toList.getLast? = some '\n' ∧ '\r' ∉ s.toList

instance (s : String) : Decidable (Text.IsLine s) := inferInstanceAs (Decidable (_ ∧ _ ∧ _))

theorem Term.isFlat_render {t : Term} (flat : t.IsFlat) : Text.IsFlat (t.render .oneLine).toList := by
  rw [render, String.toList_append, styled, encode, String.toList_ofList, isFlat_append]
  exact ⟨flat, by simp [isBreak]⟩

theorem Term.isLine_content {t : Term} (flat : t.IsFlat) : Text.IsLine (Mode.content .oneLine t) := by
  obtain ⟨feedless, returnless⟩ := isFlat_iff.1 (isFlat_render flat)
  have feed : "\n".toList = ['\n'] := by simp
  rw [IsLine, Mode.content, String.toList_append, feed]
  refine ⟨?_, by simp, by simp [returnless]⟩
  rw [List.count_append, List.count_eq_zero.2 feedless]
  rfl

theorem Generator.flat_kept (g : Generator) {p : Program} (flat : AreFlat p.strings) : AreFlat (g.kept p).strings := by
  simp only [Program.strings, areFlat_append, areFlat_flatMap] at flat ⊢
  exact ⟨flat.1, fun q member => flat.2 q (List.mem_filter.1 member).1⟩

/-- Whatever a run writes on one line is one line. -/
theorem Generator.isLine_of_generate {g : Generator} (style : g.style = .oneLine) {p : Program}
    (flat : AreFlat p.strings) (working : List String) :
    ∀ w ∈ Action.writes (g.generate working p).actions, Text.IsLine w.2 := by
  intro w member
  obtain ⟨directory, ms, -, -, m, -, call⟩ := call_of_generate member
  rw [style, Mode.calls] at call
  split at call
  · cases call
  · obtain ⟨o, listed, rfl⟩ := List.mem_map.1 call
    exact Term.isLine_content (Program.outputs_flat (g.flat_kept flat) m.hasDocs o listed)

/-- After writes there is what was written and what there was before. -/
theorem FileTree.of_mem_foldl_put {files ws : List (List String × String)} {f : List String × String}
    (member : f ∈ ws.foldl put files) : f ∈ ws ∨ f ∈ files := by
  induction ws generalizing files with
  | nil => exact Or.inr member
  | cons w ws ih =>
    rcases ih member with later | before
    · exact Or.inl (List.mem_cons_of_mem _ later)
    · rcases mem_put.1 before with rfl | ⟨-, old⟩
      · exact Or.inl List.mem_cons_self
      · exact Or.inr old

/-- **Documentation breaks no line.** If all texts of a program but its documentation are without line feeds and
carriage returns, so is every fact of a walk with documentation or without, written on one line. A run that writes so
leaves in each file that it writes, in any mode, one line feed, which is the last character. -/
theorem Program.facts_on_one_line {p : Program}
    (flat : ∀ s ∈ p.strings, '\n' ∉ s.toList ∧ '\r' ∉ s.toList) :
    (∀ docs, ∀ o ∈ (p.walk docs).outputs,
      '\n' ∉ (o.2.render .oneLine).toList ∧ '\r' ∉ (o.2.render .oneLine).toList) ∧
    ∀ (g : Generator) (t : FileTree), g.style = .oneLine →
      (∀ w ∈ Action.writes (g.generate t.working p).actions, Text.IsLine w.2) ∧
      ∀ f ∈ ((g.generate t.working p).perform t).tree.filesBelow [], f ∈ t.filesBelow [] ∨ Text.IsLine f.2 := by
  have flat : AreFlat p.strings := fun s member => isFlat_iff.2 (flat s member)
  refine ⟨fun docs o member => isFlat_iff.1 (Term.isFlat_render (p.outputs_flat flat docs o member)), ?_⟩
  intro g t style
  have lines := g.isLine_of_generate style flat t.working
  refine ⟨lines, fun f member => ?_⟩
  obtain ⟨done, part, files⟩ := (perform_tried t (g.generate t.working p).actions).files
  rw [Script.tree_perform, files] at member
  rcases FileTree.of_mem_foldl_put member with written | before
  · obtain ⟨w, tried, rfl⟩ := List.mem_map.1 written
    exact Or.inr (lines w (part.subset tried))
  · exact Or.inl before

/-- A class and a method with documentation of several lines. -/
def Program.linedSample : Program :=
  { packages := [{
      name := "p"
      members := [
        .ofType { kind := "CLASS", name := "A", doc := .text "first\r\nsecond\n" }
          [.ofExecutable { kind := "METHOD", name := "m", doc := .text "\n\r" }]] }] }

/-- The file of the class. -/
def Program.linedContent : String :=
  "class('A', p, [], [], 'null', [], [], [method(m, [], [], type(no_type, void), [], [], [], '\\n')], [], " ++
    "'first\\nsecond\\n').\n"

theorem Program.facts_on_one_line_lined :
    (∀ s ∈ linedSample.strings, '\n' ∉ s.toList ∧ '\r' ∉ s.toList) ∧ Generator.default.style = .oneLine ∧
      (["w", "prolog-facts", "full", "p", "A.pl"], linedContent) ∈
        ((Generator.default.generate Generator.treeSample.working linedSample).perform
          Generator.treeSample).tree.filesBelow [] ∧
      Text.IsLine linedContent := by
  have flat : ∀ s ∈ linedSample.strings, '\n' ∉ s.toList ∧ '\r' ∉ s.toList := by decide +kernel
  have written : (["w", "prolog-facts", "full", "p", "A.pl"], linedContent) ∈
      ((Generator.default.generate Generator.treeSample.working linedSample).perform
        Generator.treeSample).tree.filesBelow [] := by decide +kernel
  refine ⟨flat, rfl, written, ?_⟩
  rcases ((facts_on_one_line flat).2 Generator.default Generator.treeSample rfl).2 _ written with before | line
  · exact absurd before (by decide +kernel)
  · exact line

end ProgramFacts
