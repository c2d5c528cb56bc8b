import ProgramFacts.Proofs.PackageIndex

/-!
# Visits of programs follow walks

A program is visited scope by scope, its modules first. As long as no visit fails, the trace knows of the index what the
walk of the program has learnt so far. So the visit of the form of a program does what the walk does; it ends with the
index of the walk, or with its fault, and then only the events stay in the trace.
-/

namespace ProgramFacts

open Visit (run_bind_of_ok run_bind_of_error run_tryCatch)

/-! ## What is known of the index -/

/-- The trace with what an index has learnt. -/
def Trace.knowing (t : Trace) (i : Index) : Trace :=
  { t with modules := i.modules, packages := i.packages, internal := i.internal.map Form.text }

theorem Form.contains_map_text (names : List String) (name : String) :
    (names.map Form.text).contains (.text name) = decide (name ∈ names) := by
  have texts : (names.map Form.text).filterMap Form.text? = names := by
    rw [List.filterMap_map]
    exact List.filterMap_some
  rw [Bool.eq_iff_iff, Form.contains_text, texts, decide_eq_true_eq]

theorem Form.foldl_addInternal (known names : List String) :
    names.foldl Form.addInternal (known.map Form.text) = (names.foldl Index.addInternal known).map Form.text := by
  induction names generalizing known with
  | nil => rfl
  | cons name names ih =>
    have once : Form.addInternal (known.map Form.text) name = (Index.addInternal known name).map Form.text := by
      rw [Form.addInternal, Index.addInternal, Form.contains_map_text]
      split <;> simp_all
    rw [List.foldl_cons, List.foldl_cons, once, ih]

/-! ## Scopes -/

namespace Scope

variable {s : Scope} {docs : Bool}

/-- A visit that comes to its end learns what the walk learns. -/
theorem run_visitForm_of_ok (proper : s.isProper = true) (text : s.hasTextDocs = true) {fact : Term}
    (done : (s.visit docs).result = .ok fact) (t : Trace) (i : Index) :
    (s.visitForm docs).run.run (t.knowing i) = (.ok (.ok fact), (t.after (s.visit docs) []).knowing (i.enter s)) := by
  have ended : (s.visit docs).isOk = true := Walk.isOk_iff.2 ⟨fact, done⟩
  cases s with
  | module m =>
    have writable : (Scope.module m).isWritable = true := by rw [← isOk_visit_of_hasTextDocs text docs, ended]
    have noted : Directive.noted m.directives = m.directives.filterMap Directive.internal? :=
      noted_of_isWritable writable
    have listed : m.visit.listing m.name = [m.name] := if_pos ended
    have result : m.visit.result = .ok fact := done
    rw [visitForm, Module.run_visit proper, listed, noted, result]
    simp only [Trace.noting, Trace.knowing, Trace.after, Form.foldl_addInternal]
    rfl
  | package p =>
    have listed : (p.visit docs).listing p.name = [p.name] := if_pos ended
    have result : (p.visit docs).result = .ok fact := done
    have known : (t.knowing i).isInternal (.text p.name) = decide (p.name ∈ i.internal) :=
      Form.contains_map_text i.internal p.name
    rw [visitForm, Package.run_visit proper text, listed, known, result, Index.enter]
    by_cases internal : p.name ∈ i.internal
    · simp only [internal, decide_true, if_true, List.append_nil]
      rfl
    · simp only [internal, decide_false, Bool.false_eq_true, if_false]
      rfl

theorem run_visitForm_of_error (proper : s.isProper = true) (text : s.hasTextDocs = true) {e : EncodeFault}
    (failed : (s.visit docs).result = .error e) (t : Trace) :
    ∃ left, (s.visitForm docs).run.run t = (.error e, left) ∧ left.events = t.events ++ (s.visit docs).events := by
  refine ⟨t.visiting docs s, ?_, Trace.events_visiting proper text docs t⟩
  cases s with
  | module m =>
    have failed : m.visit.result = .error e := failed
    rw [Trace.visiting, visitForm, Module.run_visit proper, failed]
    rfl
  | package p =>
    have failed : (p.visit docs).result = .error e := failed
    rw [Trace.visiting, visitForm, Package.run_visit proper text, failed]
    rfl

/-- Visits the forms of scopes in order. -/
def visitForms (docs : Bool) : List Scope → Visit Unit
  | [] => pure ()
  | s :: ss => do
    let _ ← s.visitForm docs
    visitForms docs ss

theorem visitForms_append (ss more : List Scope) :
    visitForms docs (ss ++ more) = visitForms docs ss >>= fun _ => visitForms docs more := by
  induction ss with
  | nil => rfl
  | cons s ss ih => rw [List.cons_append, visitForms, visitForms, ih, bind_assoc]

/-- A loop over forms visits the scopes that they are of. -/
theorem forM_eq_visitForms {α : Type} {form : α → Form} {visit : Form → Visit Written} (scope : α → Scope)
    (same : ∀ a, visit (form a) = (scope a).visitForm docs) (as : List α) :
    ((as.map form).forM fun f => do
      let _ ← visit f) = visitForms docs (as.map scope) := by
  induction as with
  | nil => rfl
  | cons a as ih =>
    rw [List.map_cons, List.map_cons, visitForms, ← same, ← ih]
    exact bind_assoc (visit (form a)) (fun _ => pure ()) _

theorem run_visitForms_of_ok {ss : List Scope} (proper : ∀ s ∈ ss, s.isProper = true)
    (text : ∀ s ∈ ss, s.hasTextDocs = true) {i j : Index} (done : (walkScopes docs i ss).result = .ok j) (t : Trace) :
    (visitForms docs ss).run.run (t.knowing i) = (.ok (), (t.after (walkScopes docs i ss) []).knowing j) := by
  induction ss generalizing i t with
  | nil =>
    cases done
    have unchanged : t.after (walkScopes docs j []) [] = t := Visit.after_nothing t _
    rw [unchanged]
    rfl
  | cons s ss ih =>
    rw [List.forall_mem_cons] at proper text
    rw [walkScopes] at done ⊢
    obtain ⟨fact, first, rest⟩ := Walk.result_bind_eq_ok.1 done
    rw [visitForms, run_bind_of_ok (run_visitForm_of_ok proper.1 text.1 first t i), Trace.after_bind_of_ok t first]
    exact ih proper.2 text.2 rest _

theorem run_visitForms_of_error {ss : List Scope} (proper : ∀ s ∈ ss, s.isProper = true)
    (text : ∀ s ∈ ss, s.hasTextDocs = true) {i : Index} {e : EncodeFault}
    (failed : (walkScopes docs i ss).result = .error e) (t : Trace) :
    ∃ left, (visitForms docs ss).run.run (t.knowing i) = (.error e, left) ∧
      left.events = t.events ++ (walkScopes docs i ss).events := by
  induction ss generalizing i t with
  | nil => cases failed
  | cons s ss ih =>
    rw [List.forall_mem_cons] at proper text
    rw [walkScopes] at failed ⊢
    rw [visitForms]
    cases first : (s.visit docs).result with
    | error f =>
      rw [Walk.bind_of_error first] at failed ⊢
      cases failed
      obtain ⟨left, ran, events⟩ := run_visitForm_of_error proper.1 text.1 first (t.knowing i)
      exact ⟨left, run_bind_of_error ran _, events⟩
    | ok fact =>
      have here := run_visitForm_of_ok proper.1 text.1 first t i
      rw [Walk.bind_of_ok first] at failed ⊢
      obtain ⟨left, ran, events⟩ := ih proper.2 text.2 failed (t.after (s.visit docs) [])
      refine ⟨left, (run_bind_of_ok here _).trans ran, ?_⟩
      rw [events, ← List.append_assoc]
      rfl

end Scope

/-! ## Programs -/

namespace Visit

/-- A visit afresh starts from a trace without the earlier visits. Where it fails, only its events stay. -/
theorem run_afresh (v : Visit Unit) (s : Trace) :
    (afresh v).run.run s =
      match v.run.run s.forgetVisits with
      | (.ok (), t) => (.ok (), t)
      | (.error e, t) => (.error e, { s with events := t.events }) := by
  refine (run_bind_of_ok (a := s) (t := s) rfl _).trans ?_
  refine (run_bind_of_ok (a := ()) (t := s.forgetVisits) rfl _).trans ?_
  rw [run_tryCatch]
  rcases v.run.run s.forgetVisits with ⟨e | ⟨⟩, t⟩ <;> rfl

end Visit

namespace Program

def asForm (p : Program) : Form :=
  .record .program
    [("modules", .tuple (p.modules.map Module.asForm)), ("packages", .tuple (p.packages.map Package.asForm))]

theorem visitProgram_asForm (p : Program) (docs : Bool) :
    p.asForm.visitProgram docs = Visit.afresh (Scope.visitForms docs p.scopes) := by
  have modules : p.asForm.itemsOf "modules" = pure (p.modules.map Module.asForm) := rfl
  have packages : p.asForm.itemsOf "packages" = pure (p.packages.map Package.asForm) := rfl
  rw [Form.visitProgram, modules, packages, scopes, Scope.visitForms_append]
  simp only [pure_bind]
  rw [Scope.forM_eq_visitForms .module fun _ => rfl, Scope.forM_eq_visitForms .package fun _ => rfl]

/-- **Visits of programs follow walks.** Let everything in a program be what it stands for, with documentation that is
absent or a text. The visit of its form does what its walk does, from any trace. If the walk comes to its end, so does
the visit, and the trace has the counts and the index of the walk. If not, the visit fails with the fault of the walk,
and nothing stays in the trace but the events. -/
theorem run_visit {p : Program} (proper : ∀ s ∈ p.scopes, s.isProper = true) (text : p.hasTextDocs = true)
    (docs : Bool) (before : Trace) :
    (p.asForm.visitProgram docs).run.run before =
      match (p.walk docs).result with
      | .ok i =>
        (.ok (),
          { events := before.events ++ (p.walk docs).events
            tally := (p.walk docs).tally
            modules := i.modules
            packages := i.packages
            internal := i.internal.map Form.text
            scope := before.scope })
      | .error e => (.error e, { before with events := before.events ++ (p.walk docs).events }) := by
  have texts : ∀ s ∈ p.scopes, s.hasTextDocs = true := by
    rw [hasTextDocs, List.all_flatMap, List.all_eq_true] at text
    exact text
  have nothing : before.forgetVisits.knowing {} = before.forgetVisits := rfl
  rw [visitProgram_asForm]
  cases result : (p.walk docs).result with
  | ok i =>
    have ran := Scope.run_visitForms_of_ok proper texts result before.forgetVisits
    rw [nothing] at ran
    rw [Visit.run_afresh, ran]
    simp only [Trace.after, Trace.knowing, Trace.forgetVisits, List.append_nil, Tally.zero_add]
    rfl
  | error e =>
    obtain ⟨left, ran, events⟩ := Scope.run_visitForms_of_error proper texts result before.forgetVisits
    rw [nothing] at ran
    rw [Visit.run_afresh, ran]
    dsimp only
    rw [events]
    rfl

end Program

end ProgramFacts
