import ProgramFacts.Proofs.Form.Simulation

/-!
# Visits of members follow walks

The recurring parts of declarations, then executables, variables and types. The last is by recursion on the members
of a type: they are visited in a scope of their own, and what is in this scope at the end is the result of their walk.
-/

namespace ProgramFacts

open Visit (follows_known follows_field follows_items follows_pure follows_lift follows_text notes_pure notes_terms)

/-! ## The recurring parts of declarations -/

/-- The terms of several things are a list. -/
theorem Form.notes_encodeEach {γ : Type} {part : γ → Form} {encode : Form → Visit Written} {note : γ → Noted Term}
    (cs : List γ) (each : ∀ c ∈ cs, (encode (part c)).Notes (note c) Except.ok) :
    (Form.encodeEach encode (.tuple (cs.map part))).Notes
      (Noted.each note cs >>= fun ts => pure (.list ts)) Except.ok :=
  follows_known rfl (notes_terms (fun l => l) cs each fun _ => rfl)

/-- Names call for no warning. -/
theorem Form.encodeEach_textForms {encode : Form → Visit Written} {term : String → Term}
    (each : ∀ s, encode (.text s) = pure (.ok (term s))) (names : List String) :
    (textForms names).encodeEach encode = pure (.ok (.list (names.map term))) := by
  have terms : (names.map Form.text).mapM encode = pure ((names.map term).map Except.ok) := by
    induction names with
    | nil => rfl
    | cons name names ih =>
      rw [List.map_cons, List.mapM_cons, each, pure_bind, ih, pure_bind]
      rfl
  rw [← Written.list_ok]
  change (names.map Form.text).mapM encode >>= _ = _
  rw [terms, pure_bind]

theorem encodeModifiers_textForms (ms : List String) :
    (textForms ms).encodeModifiers = pure (.ok (encodeModifiers ms)) :=
  Form.encodeEach_textForms (fun _ => rfl) ms

theorem encodeNames_textForms (names : List String) : (textForms names).encodeNames = pure (.ok (atoms names)) :=
  Form.encodeEach_textForms (fun _ => rfl) names

theorem notes_encodeNotes {as : List Annotation} (proper : as.all Annotation.isProper = true) :
    (noteForms as).encodeNotes.Notes (encodeAnnotations as) Except.ok := by
  refine Form.notes_encodeEach as fun a member => ?_
  have within : Value.areArgumentsProper a.arguments = true := List.all_eq_true.1 proper a member
  refine notes_encodeNoteWith a.name a.arguments fun b argument => ?_
  exact Value.notes_encodeArguments a.arguments within b argument _ (Nat.lt_succ_self _)

theorem notes_encodeTypes {ts : List TypeExpr} (proper : TypeExpr.areProper ts = true) :
    (Form.tuple (TypeExpr.asForms ts)).encodeTypes.Notes (encodeTypes ts) Except.ok := by
  rw [TypeExpr.asForms_eq_map, encodeTypes, TypeExpr.encodeList_eq_each]
  refine Form.notes_encodeEach ts fun t member => ?_
  exact TypeExpr.notes_encodeAll ts proper t member _ (Nat.lt_succ_self _)

theorem notes_encodeTypeParameters {ps : List TypeParameter} (proper : ps.all TypeParameter.isProper = true) :
    (Form.tuple (ps.map TypeParameter.asForm)).encodeTypeParameters.Notes (encodeTypeParameters ps) Except.ok := by
  refine Form.notes_encodeEach ps fun p member => ?_
  have both := List.all_eq_true.1 proper p member
  rw [TypeParameter.isProper, Bool.and_eq_true] at both
  refine follows_field rfl (follows_field rfl ((notes_encodeTypes both.1).then fun _ => ?_))
  exact follows_field rfl ((notes_encodeNotes both.2).then fun _ => notes_pure rfl)

theorem notes_encodeParameters {ps : List Parameter} (proper : ps.all Parameter.isProper = true) :
    (Form.tuple (ps.map Parameter.asForm)).encodeParameters.Notes (encodeParameters ps) Except.ok := by
  refine Form.notes_encodeEach ps fun p member => ?_
  have both := List.all_eq_true.1 proper p member
  rw [Parameter.isProper, Bool.and_eq_true] at both
  refine follows_field rfl (follows_field rfl ((TypeExpr.notes_encode both.1).then fun _ => ?_))
  refine follows_field rfl (follows_known (encodeModifiers_textForms p.modifiers) ?_)
  exact follows_field rfl ((notes_encodeNotes both.2).then fun _ => notes_pure rfl)

theorem notes_encodeComponents {cs : List RecordComponent} (proper : cs.all RecordComponent.isProper = true) :
    (Form.tuple (cs.map RecordComponent.asForm)).encodeComponents.Notes (encodeComponents cs) Except.ok := by
  refine Form.notes_encodeEach cs fun c member => ?_
  have both := List.all_eq_true.1 proper c member
  rw [RecordComponent.isProper, Bool.and_eq_true] at both
  refine follows_field rfl (follows_field rfl ((TypeExpr.notes_encode both.1).then fun _ => ?_))
  exact follows_field rfl ((notes_encodeNotes both.2).then fun _ => notes_pure rfl)

theorem notes_encodeThrows {ts : List TypeExpr} (proper : TypeExpr.areProper ts = true) :
    (Form.tuple (TypeExpr.asForms ts)).encodeThrows.Notes (encodeThrows ts) Except.ok := by
  rw [TypeExpr.asForms_eq_map]
  refine Form.notes_encodeEach ts fun t member => ?_
  rw [TypeExpr.areProper_eq_all] at proper
  exact (TypeExpr.notes_encode (List.all_eq_true.1 proper t member)).then fun _ => notes_pure rfl

/-! ## Supertypes -/

theorem TypeExpr.formName_asForm {t : TypeExpr} (proper : t.isProper = true) : t.asForm.formName = t.form := by
  cases t with
  | stray f => cases proper
  | _ => rfl

theorem TypeExpr.isImplied_asForm {t : TypeExpr} (proper : t.isProper = true) : t.asForm.isImplied = t.isImplied := by
  cases t with
  | stray f => cases proper
  | declared n ts =>
    have name : (some (Form.text n) == some (Form.text rootClass)) = (n == rootClass) := by
      change decide (Scalar.text n = Scalar.text rootClass) = decide (n = rootClass)
      simp
    cases ts with
    | nil =>
      change ((some (Form.text n) == some (Form.text rootClass)) && true) = (n == rootClass)
      rw [name, Bool.and_true]
    | cons t ts =>
      change ((some (Form.text n) == some (Form.text rootClass)) && false) = false
      rw [Bool.and_false]
  | _ => rfl

theorem notes_encodeSupertype {t : TypeExpr} (proper : t.isProper = true) (relation : String) :
    (Form.encodeSupertype relation t.asForm).Notes
      (t.encode >>= fun type => pure (.compound relation [.atom t.form, type])) Except.ok := by
  refine (TypeExpr.notes_encode proper).then fun type => notes_pure ?_
  rw [TypeExpr.formName_asForm proper]
  rfl

theorem notes_encodeExtends {t? : Option TypeExpr} (proper : TypeExpr.isProperOrNone t? = true) :
    (TypeExpr.asFormOrNull t?).encodeExtends.Notes (encodeExtends t?) Except.ok := by
  cases t? with
  | none => exact notes_pure rfl
  | some t =>
    rw [TypeExpr.asFormOrNull, Form.encodeExtends, encodeExtends, TypeExpr.isImplied_asForm proper]
    split
    · exact notes_pure rfl
    · exact notes_encodeSupertype proper "extends"

theorem notes_encodeImplements {ts : List TypeExpr} (proper : TypeExpr.areProper ts = true) :
    (Form.tuple (TypeExpr.asForms ts)).encodeImplements.Notes (encodeImplements ts) Except.ok := by
  rw [TypeExpr.asForms_eq_map]
  refine Form.notes_encodeEach ts fun t member => ?_
  rw [TypeExpr.areProper_eq_all] at proper
  exact notes_encodeSupertype (List.all_eq_true.1 proper t member) "implements"

/-! ## Documentation -/

theorem follows_encodeDoc {doc : Document} (text : doc.isTextOrNull = true) (docs : Bool) :
    (doc.asForm.encodeDoc docs).Follows (Walk.ofResult (encodeDoc docs doc)) Except.ok fun _ => [] := by
  have scalar : ∀ s : Scalar, (Form.encodeDoc docs (.scalar s)).Follows
      (Walk.ofResult (encodeDoc docs (.scalar s))) Except.ok fun _ => [] := by
    intro s
    unfold Form.encodeDoc
    split
    · exact follows_lift _ _
    · next absent =>
      have none : encodeDoc docs (.scalar s) = .ok (.atom "") := by
        unfold encodeDoc
        exact if_neg absent
      rw [none]
      exact follows_pure rfl rfl
  unfold Document.isTextOrNull at text
  split at text
  · exact scalar .null
  · exact scalar (.text _)
  · cases text

/-! ## Members -/

/-- What a member contributes is put into the scope. -/
def contributed (m : Option Term) : List Written := (m.map Except.ok).toList

theorem follows_skip (w : Warning) : (Visit.skip w).Follows (Walk.skip w) (fun _ => ()) fun _ => [] := by
  intro before
  change _ = (Except.ok (), before.after (Walk.skip w) [])
  simp only [Trace.after, List.append_nil]
  rfl

/-- What is left out contributes nothing. -/
theorem follows_skip_member (w : Warning) :
    (Visit.skip w).Follows (Walk.skip w >>= fun _ => pure none) (fun _ => ()) contributed := by
  rw [← bind_pure (Visit.skip w)]
  exact (follows_skip w).map (fun _ => rfl) fun _ => rfl

theorem follows_contribute (m : Term) (more : Tally) :
    (Visit.contribute (.ok m) >>= fun _ => Visit.count more).Follows
      (Walk.count more >>= fun _ => pure (some m)) (fun _ => ()) contributed := by
  intro before
  have walk : (Walk.count more >>= fun _ => pure (some m)) = (⟨[], more, .ok (some m)⟩ : Walk (Option Term)) := rfl
  rw [walk]
  simp only [Trace.after, List.append_nil]
  rfl

theorem Form.text_beq (s t : String) : (Form.text s == Form.text t) = decide (s = t) := by
  change decide (Scalar.text s = Scalar.text t) = decide (s = t)
  simp

/-- The parts that come last in methods and in constructors. -/
theorem Executable.follows_callParts {e : Executable} (proper : e.isProper = true) (text : e.doc.isTextOrNull = true)
    (docs : Bool) {head : List Written} {kind : String} {more : Tally} {build : Term → Term → Term → Term → List Term}
    (built : ∀ ps ts ns d, Written.compound kind (head ++ [.ok ps, .ok ts, .ok ns, .ok d]) =
      .ok (.compound kind (build ps ts ns d))) :
    (e.asForm.callParts docs >>= fun parts => do
      Visit.contribute (Written.compound kind (head ++ parts))
      Visit.count more).Follows (do
        let parameters ← Walk.ofNoted (encodeParameters e.parameters)
        let throws ← Walk.ofNoted (encodeThrows e.thrownTypes)
        let notes ← Walk.ofNoted (encodeAnnotations e.annotations)
        let doc ← Walk.ofResult (encodeDoc docs e.doc)
        Walk.count more
        pure (some (.compound kind (build parameters throws notes doc)))) (fun _ => ()) contributed := by
  simp only [Executable.isProper, Bool.and_eq_true] at proper
  obtain ⟨⟨⟨-, parameters⟩, throws⟩, notes⟩ := proper
  simp only [Form.callParts, bind_assoc, pure_bind]
  refine follows_field rfl ((notes_encodeParameters parameters).bind fun ps => ?_)
  refine follows_field rfl ((notes_encodeThrows throws).bind fun ts => ?_)
  refine follows_field rfl ((notes_encodeNotes notes).bind fun ns => ?_)
  refine follows_field rfl ((follows_encodeDoc text docs).bind fun d => ?_)
  rw [built]
  exact follows_contribute _ _

theorem Executable.follows_visit {e : Executable} (proper : e.isProper = true) (text : e.doc.isTextOrNull = true)
    (docs : Bool) : (e.asForm.visitExecutable docs).Follows (e.visit docs) (fun _ => ()) contributed := by
  have parts := proper
  simp only [Executable.isProper, Bool.and_eq_true] at parts
  obtain ⟨⟨⟨⟨typeParameters, returnType⟩, -⟩, -⟩, -⟩ := parts
  rw [Executable.visit]
  refine follows_field rfl (follows_field rfl ?_)
  simp only [Form.text_beq, decide_eq_true_eq]
  split
  · refine follows_field rfl (follows_known (encodeModifiers_textForms e.modifiers) ?_)
    refine follows_field rfl ((notes_encodeTypeParameters typeParameters).bind fun ps => ?_)
    refine follows_field rfl ((TypeExpr.notes_encode returnType).bind fun t => ?_)
    exact Executable.follows_callParts proper text docs fun _ _ _ _ => rfl
  · split
    · refine follows_field rfl (follows_known (encodeModifiers_textForms e.modifiers) ?_)
      refine follows_field rfl ((notes_encodeTypeParameters typeParameters).bind fun ps => ?_)
      exact Executable.follows_callParts proper text docs fun _ _ _ _ => rfl
    · exact follows_skip_member _

theorem Variable.follows_visit {v : Variable} (proper : v.isProper = true) (text : v.doc.isTextOrNull = true)
    (docs : Bool) : (v.asForm.visitVariable docs).Follows (v.visit docs) (fun _ => ()) contributed := by
  rw [Variable.isProper, Bool.and_eq_true] at proper
  rw [Variable.visit]
  refine follows_field rfl (follows_field rfl ?_)
  have ignored : (Form.text v.kind).isKindIn ignoredVariableKinds = decide (v.kind ∈ ignoredVariableKinds) := by
    simp [Form.isKindIn, Form.text?, Form.text]
  simp only [Form.text_beq, ignored, decide_eq_true_eq]
  split
  · exact follows_pure rfl rfl
  · split
    · refine follows_field rfl (follows_known (encodeModifiers_textForms v.modifiers) ?_)
      refine follows_field rfl ((TypeExpr.notes_encode proper.1).bind fun t => ?_)
      refine follows_field rfl ((notes_encodeNotes proper.2).bind fun ns => ?_)
      refine follows_field rfl ((follows_encodeDoc text docs).bind fun d => ?_)
      exact follows_contribute _ _
    · exact follows_skip_member _

/-! ## Scopes of their own -/

namespace Visit

/-- Whether a visit does what a walk does and leaves the terms of its result in the scope, behind what is there.
What a visit that fails leaves there is of no account: the scope is left behind. -/
def Fills (v : Visit Unit) (w : Walk (List Term)) : Prop :=
  ∀ before, ∃ scope, v.run.run before = (w.result.map fun _ => (), { before.after w [] with scope := scope }) ∧
    ∀ ms, w.result = .ok ms → scope = before.scope ++ ms.map Except.ok

theorem fills_nothing : (pure () : Visit Unit).Fills (pure []) := by
  intro before
  have unchanged : before.after (pure [] : Walk (List Term)) [] = before := after_nothing before _
  rw [unchanged]
  refine ⟨before.scope, rfl, fun ms nothing => ?_⟩
  cases nothing
  exact (List.append_nil _).symm

/-- One member more. -/
theorem Fills.cons {v u : Visit Unit} {w : Walk (Option Term)} {x : Walk (List Term)}
    (first : v.Follows w (fun _ => ()) contributed) (others : u.Fills x) :
    (v >>= fun _ => u).Fills (w >>= fun m => x >>= fun ms => pure (m.toList ++ ms)) := by
  intro before
  have here := first before
  cases result : w.result with
  | error e =>
    rw [result] at here
    rw [run_bind_of_error here, Walk.bind_of_error result]
    exact ⟨(before.after w []).scope, rfl, fun ms impossible => by cases impossible⟩
  | ok m =>
    rw [result] at here
    obtain ⟨scope, ran, filled⟩ := others (before.after w (contributed m))
    rw [run_bind_of_ok here, Walk.bind_of_ok result]
    cases rest : x.result with
    | error e =>
      rw [rest] at ran
      rw [Walk.bind_of_error rest]
      refine ⟨scope, ran.trans ?_, fun ms impossible => by cases impossible⟩
      simp [Trace.after, Tally.add_assoc, Except.map]
    | ok ms =>
      rw [rest] at ran
      rw [Walk.bind_of_ok rest]
      refine ⟨scope, ran.trans ?_, fun all both => ?_⟩
      · have last : (pure (m.toList ++ ms) : Walk (List Term)) = ⟨[], {}, .ok (m.toList ++ ms)⟩ := rfl
        simp [last, Trace.after, Tally.add_assoc, Tally.add_zero, Except.map]
      · cases both
        rw [filled ms rest]
        cases m <;> simp [Trace.after, contributed]

theorem Fills.inScope {v : Visit Unit} {w : Walk (List Term)} (h : v.Fills w) :
    (Visit.inScope v).Follows w (List.map Except.ok) fun _ => [] := by
  intro before
  obtain ⟨scope, ran, filled⟩ := h { before with scope := [] }
  cases result : w.result with
  | ok ms =>
    rw [result] at ran
    rw [run_inScope_of_ok ran, filled ms result]
    simp [Trace.after, given, Except.map]
  | error e =>
    rw [result] at ran
    rw [run_inScope_of_error ran]
    simp [Trace.after, given, Except.map]

end Visit

/-! ## Types -/

theorem qualify_text (package name : String) :
    Form.qualify? (.text package) (.text name) = some (qualify package name) := by
  have given : (Form.text package).isGiven = (package != "") := rfl
  rw [Form.qualify?, qualify, given]
  by_cases nameless : package = ""
  · subst nameless
    rfl
  · rw [if_neg nameless, if_pos (by simpa using nameless)]
    rfl

theorem TypeHead.follows_fact {t : TypeHead} (proper : t.isProper = true) (text : t.doc.isTextOrNull = true)
    (docs : Bool) (package : String) (fs : List Form) (ms : List Term) (shape : TypeShape) :
    (Form.typeFact docs (.text package) (t.asForm fs) (.ok (.list ms)) shape).Follows
      (t.fact docs package ms shape) Except.ok fun _ => [] := by
  simp only [TypeHead.isProper, Bool.and_eq_true] at proper
  obtain ⟨⟨⟨⟨parameters, superclass⟩, interfaces⟩, components⟩, notes⟩ := proper
  have ofParameters : ((t.asForm fs).get "type_parameters" >>= fun g => g.encodeTypeParameters).Notes
      (encodeTypeParameters t.typeParameters) Except.ok :=
    follows_field rfl (notes_encodeTypeParameters parameters)
  have ofInterfaces : ((t.asForm fs).get "interfaces" >>= fun g => g.encodeImplements).Notes
      (encodeImplements t.interfaces) Except.ok :=
    follows_field rfl (notes_encodeImplements interfaces)
  have ofNotes : ((t.asForm fs).get "annotations" >>= fun g => g.encodeNotes).Notes
      (encodeAnnotations t.annotations) Except.ok :=
    follows_field rfl (notes_encodeNotes notes)
  have ofDoc : ((t.asForm fs).get "doc" >>= fun g => g.encodeDoc docs).Follows
      (Walk.ofResult (encodeDoc docs t.doc)) Except.ok fun _ => [] :=
    follows_field rfl (follows_encodeDoc text docs)
  refine follows_field rfl (follows_field rfl (follows_known (encodeModifiers_textForms t.modifiers) ?_))
  cases shape with
  | classType =>
    refine ofParameters.bind fun ps => follows_field rfl ((notes_encodeExtends superclass).bind fun s => ?_)
    refine ofInterfaces.bind fun is => follows_field rfl (follows_known (encodeNames_textForms t.permitted) ?_)
    exact ofNotes.bind fun ns => ofDoc.bind fun d => follows_pure rfl rfl
  | interface =>
    have permitted : (textForms t.permitted).encodeEach
        (fun p => pure (Written.compound "declared_type" [p.atom, Written.list []])) =
          pure (.ok (.list (t.permitted.map (declaredTerm · [])))) :=
      Form.encodeEach_textForms (fun _ => rfl) t.permitted
    refine ofParameters.bind fun ps => ofInterfaces.bind fun is => ofNotes.bind fun ns => ?_
    refine follows_field rfl (follows_known permitted ?_)
    exact ofDoc.bind fun d => follows_pure rfl rfl
  | enumeration =>
    exact ofInterfaces.bind fun is => ofNotes.bind fun ns => ofDoc.bind fun d => follows_pure rfl rfl
  | annotationType => exact ofNotes.bind fun ns => ofDoc.bind fun d => follows_pure rfl rfl
  | record =>
    refine ofParameters.bind fun ps => ofInterfaces.bind fun is => ?_
    refine follows_field rfl ((notes_encodeComponents components).bind fun cs => ?_)
    exact ofNotes.bind fun ns => ofDoc.bind fun d => follows_pure rfl rfl

/-- A finished type is marked in the scope around it and then written. -/
theorem follows_finish (t : TypeHead) (package : String) (f : Term) :
    (do
      Visit.contribute (.ok t.marker)
      Visit.write (.type package t.name) (.ok f)
      Visit.count { types := 1 }
      pure (some (.ok f)) : Visit (Option Written)).Follows
      (do
        Walk.write (.type package t.name) f
        Walk.count { types := 1 }
        pure (some f))
      (Option.map Except.ok) fun f => contributed (f.map fun _ => t.marker) := by
  intro before
  have walk : (do
      Walk.write (.type package t.name) f
      Walk.count { types := 1 }
      pure (some f)) = (⟨[.write (.type package t.name) f], { types := 1 }, .ok (some f)⟩ : Walk (Option Term)) := rfl
  rw [walk]
  simp only [Trace.after]
  rfl

theorem TypeHead.follows_visitWith {t : TypeHead} (proper : t.isProper = true) (text : t.doc.isTextOrNull = true)
    (docs : Bool) (package : String) {member : Form → Visit Unit} {fs : List Form} {members : Walk (List Term)}
    (filled : (fs.forM member).Fills members) :
    (Form.visitTypeWith docs (.text package) member (t.asForm fs)).Follows (t.visitWith docs package members)
      (Option.map Except.ok) fun f => contributed (f.map fun _ => t.marker) := by
  rw [TypeHead.visitWith]
  refine follows_field rfl ?_
  have kind : (Form.text t.kind).text?.bind TypeShape.ofKind? = TypeShape.ofKind? t.kind := rfl
  rw [kind]
  cases TypeShape.ofKind? t.kind with
  | none =>
    refine follows_field rfl (follows_known (d := t.kind) rfl ?_)
    refine follows_known (congrArg Visit.text (qualify_text package t.name)) ?_
    exact (follows_skip _).map (fun _ => rfl) fun _ => rfl
  | some shape =>
    refine follows_items rfl (filled.inScope.bind fun ms => ?_)
    rw [Written.list_ok]
    refine (TypeHead.follows_fact proper text docs package fs ms shape).bind fun f => follows_field rfl ?_
    exact follows_finish t package f

mutual

theorem follows_visitMemberIn (docs : Bool) (package : String) :
    ∀ d : Declaration, d.isProper = true → d.hasTextDocs = true → ∀ fuel, d.asForm.depth < fuel →
      (Form.visitMemberIn docs (.text package) fuel d.asForm).Follows (visitMember docs package d)
        (fun _ => ()) contributed
  | _, _, _, 0, short => absurd short (Nat.not_lt_zero _)
  | .ofType t ds, proper, text, fuel + 1, deep => by
    rw [Declaration.isProper, Bool.and_eq_true] at proper
    rw [Declaration.hasTextDocs_ofType] at text
    rw [Declaration.asForm] at deep ⊢
    have within := Form.depth_field deep "members" rfl
    have filled := fills_visitMembersIn docs package ds proper.2 text.2 fuel (Nat.lt_succ_of_lt within)
    rw [visitMember]
    exact (TypeHead.follows_visitWith proper.1 text.1 docs package filled).map (fun _ => rfl) fun _ => rfl
  | .ofExecutable e, proper, text, fuel + 1, _ => by
    rw [Declaration.hasTextDocs_ofExecutable] at text
    rw [visitMember]
    exact Executable.follows_visit proper text docs
  | .ofVariable v, proper, text, fuel + 1, _ => by
    rw [Declaration.hasTextDocs_ofVariable] at text
    rw [visitMember]
    exact Variable.follows_visit proper text docs
  | .stray f, proper, _, fuel + 1, _ => by
    rw [visitMember, Declaration.asForm]
    unfold Form.visitMemberIn
    split
    · cases proper
    · cases proper
    · cases proper
    · exact (follows_text _).bind fun _ => follows_skip_member _

theorem fills_visitMembersIn (docs : Bool) (package : String) :
    ∀ ds : List Declaration, Declaration.areProper ds = true →
      (Declaration.docsIn ds).all Document.isTextOrNull = true →
      ∀ fuel, (Form.tuple (Declaration.asForms ds)).depth < fuel + 1 →
      ((Declaration.asForms ds).forM (Form.visitMemberIn docs (.text package) fuel)).Fills
        (visitMembers docs package ds)
  | [], _, _, _, _ => by
    rw [visitMembers]
    exact Visit.fills_nothing
  | d :: ds, proper, text, fuel, deep => by
    rw [Declaration.areProper, Bool.and_eq_true] at proper
    obtain ⟨first, others⟩ := Declaration.docsIn_all text
    rw [Declaration.asForms] at deep ⊢
    have within := Form.depth_item deep List.mem_cons_self
    rw [visitMembers]
    refine Visit.Fills.cons (follows_visitMemberIn docs package d proper.1 first fuel within) ?_
    refine fills_visitMembersIn docs package ds proper.2 others fuel ?_
    exact Nat.lt_of_le_of_lt (Nat.succ_le_succ (Nat.le_max_right ..)) deep

end

/-- **Visits follow walks**: the visit of a proper declaration does what its walk does, and gives what the walk comes
to to the scope. -/
theorem follows_visitMember (docs : Bool) (package : String) {d : Declaration} (proper : d.isProper = true)
    (text : d.hasTextDocs = true) :
    (Form.visitMember docs (.text package) d.asForm).Follows (visitMember docs package d) (fun _ => ()) contributed :=
  follows_visitMemberIn docs package d proper text _ (Nat.lt_succ_self _)

end ProgramFacts
