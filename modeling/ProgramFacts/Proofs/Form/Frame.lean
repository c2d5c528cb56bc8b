import ProgramFacts.Facts.Form.Visit

/-!
# What a visit leaves alone

A visit adds to the trace that it starts from: events, counts, members of the scope. It takes nothing away, it does
not touch the index, and what it adds does not depend on what is there. This holds for any form in the place of a
member, well made or not, and also for a visit that fails.

A visit is framed by a number if this is so and if it gives at most so many members to the scope around it. The
visit of a member is framed by one: whatever is in a member stays in scopes of its own.
-/

namespace ProgramFacts

namespace Tally

theorem add_assoc (a b c : Tally) : a + b + c = a + (b + c) := by
  change Tally.mk .. = Tally.mk ..
  congr 1 <;> exact Nat.add_assoc _ _ _

theorem add_zero (a : Tally) : a + {} = a := rfl

theorem zero_add (a : Tally) : {} + a = a := by
  change Tally.mk .. = Tally.mk ..
  congr 1 <;> exact Nat.zero_add _

end Tally

/-- The trace after a walk that gave members to the scope. -/
def Trace.after {α : Type} (t : Trace) (w : Walk α) (members : List Written) : Trace :=
  { t with events := t.events ++ w.events, tally := t.tally + w.tally, scope := t.scope ++ members }

namespace Visit

variable {α β : Type}

/-! ## Running visits -/

theorem run_bind_of_ok {x : Visit α} {s t : Trace} {a : α} (h : x.run.run s = (.ok a, t)) (f : α → Visit β) :
    (x >>= f).run.run s = (f a).run.run t := by
  rw [ExceptT.run_bind, StateT.run_bind, h]
  rfl

theorem run_bind_of_error {x : Visit α} {s t : Trace} {e : EncodeFault} (h : x.run.run s = (.error e, t))
    (f : α → Visit β) : (x >>= f).run.run s = (.error e, t) := by
  rw [ExceptT.run_bind, StateT.run_bind, h]
  rfl

theorem run_tryCatch (v : Visit α) (handle : EncodeFault → Visit α) (s : Trace) :
    (tryCatch v handle).run.run s =
      match v.run.run s with
      | (.ok a, t) => (.ok a, t)
      | (.error e, t) => (handle e).run.run t := by
  rw [ExceptT.run_tryCatch, StateT.run_bind]
  rcases v.run.run s with ⟨_ | _, t⟩ <;> rfl

theorem run_inScope_of_ok {v : Visit Unit} {s t : Trace} (h : v.run.run { s with scope := [] } = (.ok (), t)) :
    (inScope v).run.run s = (.ok t.scope, { t with scope := s.scope }) := by
  refine (run_bind_of_ok (a := s) (t := s) rfl _).trans ?_
  refine (run_bind_of_ok (a := ()) (t := { s with scope := [] }) rfl _).trans ?_
  refine (run_bind_of_ok (a := ()) (t := t) ?_ _).trans rfl
  rw [run_tryCatch, h]

/-- A scope is left behind also by a visit that fails in it. -/
theorem run_inScope_of_error {v : Visit Unit} {s t : Trace} {e : EncodeFault}
    (h : v.run.run { s with scope := [] } = (.error e, t)) :
    (inScope v).run.run s = (.error e, { t with scope := s.scope }) := by
  refine (run_bind_of_ok (a := s) (t := s) rfl _).trans ?_
  refine (run_bind_of_ok (a := ()) (t := { s with scope := [] }) rfl _).trans ?_
  refine run_bind_of_error ?_ _
  rw [run_tryCatch, h]
  rfl

/-! ## Frames -/

/-- Whether a visit does the same from every trace, on top of it, and gives at most so many members to the scope. -/
def IsFramed (atMost : Nat) (v : Visit α) : Prop :=
  ∃ (w : Walk α) (members : List Written), members.length ≤ atMost ∧
    ∀ before, v.run.run before = (w.result, before.after w members)

theorem after_after (t : Trace) (v : Walk α) (w : Walk β) (ms ns : List Written) :
    (t.after v ms).after w ns =
      t.after (⟨v.events ++ w.events, v.tally + w.tally, w.result⟩ : Walk β) (ms ++ ns) := by
  simp [Trace.after, Tally.add_assoc]

theorem after_nothing (t : Trace) (r : Except EncodeFault α) : t.after (⟨[], {}, r⟩ : Walk α) [] = t := by
  simp [Trace.after, Tally.add_zero]

theorem framed_pure (a : α) : IsFramed 0 (pure a : Visit α) := by
  refine ⟨pure a, [], Nat.le_refl _, fun before => ?_⟩
  rw [show before.after (pure a : Walk α) [] = before from after_nothing before _]
  rfl

theorem framed_throw (e : EncodeFault) : IsFramed 0 (throw e : Visit α) := by
  refine ⟨⟨[], {}, .error e⟩, [], Nat.le_refl _, fun before => ?_⟩
  rw [after_nothing]
  rfl

theorem framed_event (e : Event) : IsFramed 0 (event e) := by
  refine ⟨⟨[e], {}, .ok ()⟩, [], Nat.le_refl _, fun before => ?_⟩
  simp only [Trace.after, List.append_nil]
  rfl

theorem framed_count (more : Tally) : IsFramed 0 (count more) := by
  refine ⟨⟨[], more, .ok ()⟩, [], Nat.le_refl _, fun before => ?_⟩
  simp only [Trace.after, List.append_nil]
  rfl

theorem framed_contribute (member : Written) : IsFramed 1 (contribute member) := by
  refine ⟨⟨[], {}, .ok ()⟩, [member], Nat.le_refl _, fun before => ?_⟩
  simp only [Trace.after, List.append_nil]
  rfl

/-- One visit after the other. -/
theorem IsFramed.bind {x : Visit α} {f : α → Visit β} {m n : Nat} (first : x.IsFramed m)
    (next : ∀ a, (f a).IsFramed n) : (x >>= f).IsFramed (m + n) := by
  obtain ⟨v, ms, few, ran⟩ := first
  cases result : v.result with
  | ok a =>
    obtain ⟨w, ns, few', ran'⟩ := next a
    refine ⟨⟨v.events ++ w.events, v.tally + w.tally, w.result⟩, ms ++ ns, ?_, fun before => ?_⟩
    · rw [List.length_append]
      exact Nat.add_le_add few few'
    · have here := ran before
      rw [result] at here
      rw [run_bind_of_ok here, ran', after_after]
  | error e =>
    refine ⟨⟨v.events, v.tally, .error e⟩, ms, Nat.le_trans few (Nat.le_add_right m n), fun before => ?_⟩
    have here := ran before
    rw [result] at here
    exact run_bind_of_error here f

/-- A visit that gives no member may come first. -/
theorem IsFramed.then {x : Visit α} {f : α → Visit β} {n : Nat} (first : x.IsFramed 0)
    (next : ∀ a, (f a).IsFramed n) : (x >>= f).IsFramed n := by
  have both := first.bind next
  rwa [Nat.zero_add] at both

theorem IsFramed.weaken {v : Visit α} {m n : Nat} (h : v.IsFramed m) (le : m ≤ n) : v.IsFramed n := by
  obtain ⟨w, ms, few, ran⟩ := h
  exact ⟨w, ms, Nat.le_trans few le, ran⟩

/-- The members that a visit gives to a scope of its own do not come to the scope around it. -/
theorem IsFramed.inScope {v : Visit Unit} {n : Nat} (inner : v.IsFramed n) : (Visit.inScope v).IsFramed 0 := by
  obtain ⟨w, ms, -, ran⟩ := inner
  refine ⟨⟨w.events, w.tally, w.result.map fun _ => ms⟩, [], Nat.le_refl _, fun before => ?_⟩
  have here := ran { before with scope := [] }
  cases result : w.result with
  | ok a =>
    rw [result] at here
    rw [run_inScope_of_ok here]
    simp [Trace.after, Except.map]
  | error e =>
    rw [result] at here
    rw [run_inScope_of_error here]
    simp [Trace.after, Except.map]

theorem framed_warn (w : Warning) : IsFramed 0 (warn w) := framed_event (.warning w)

theorem framed_skip (w : Warning) : IsFramed 0 (skip w) := (framed_count _).then fun _ => framed_warn w

theorem framed_lift (r : Except EncodeFault α) : IsFramed 0 (liftM r : Visit α) := by
  cases r with
  | ok a => exact framed_pure a
  | error e => exact framed_throw e

theorem framed_text (text? : Option String) : IsFramed 0 (text text?) := framed_lift _

/-- What is left out is told with two texts about it. -/
theorem framed_skipWith (text? text?' : Option String) (w : String → String → Warning) :
    IsFramed 1 (text text? >>= fun s => text text?' >>= fun t => skip (w s t)) :=
  ((framed_text _).then fun _ => (framed_text _).then fun _ => framed_skip _).weaken (Nat.zero_le 1)

theorem framed_write (key : Key) (fact : Written) : IsFramed 0 (write key fact) :=
  (framed_lift fact).then fun _ => framed_event _

theorem framed_mapM {f : α → Visit β} (each : ∀ a, (f a).IsFramed 0) (as : List α) : (as.mapM f).IsFramed 0 := by
  induction as with
  | nil =>
    rw [List.mapM_nil]
    exact framed_pure []
  | cons a as ih =>
    rw [List.mapM_cons]
    exact (each a).then fun _ => ih.then fun _ => framed_pure _

/-- Visits of several things give at most as many members as there are things, if each gives at most one. -/
theorem framed_forM {f : α → Visit Unit} (each : ∀ a, (f a).IsFramed 1) (as : List α) :
    (as.forM f).IsFramed as.length := by
  induction as with
  | nil => exact framed_pure ()
  | cons a as ih =>
    rw [List.length_cons, Nat.add_comm]
    exact (each a).bind fun _ => ih

end Visit

namespace Form

open Visit (IsFramed framed_pure framed_throw framed_warn framed_skip framed_count framed_text framed_skipWith
  framed_write framed_contribute framed_lift framed_mapM framed_forM)

/-! ## Looking into forms -/

theorem framed_get (f : Form) (name : String) : (f.get name).IsFramed 0 := by
  rw [get]
  split
  · exact framed_pure _
  · exact framed_throw _

theorem framed_items (f : Form) : f.items.IsFramed 0 := by
  unfold items
  split
  · exact framed_pure _
  · exact framed_pure _
  · exact framed_throw _

theorem framed_pair (f : Form) : f.pair.IsFramed 0 := by
  unfold pair
  split
  · refine (framed_items _).then fun parts => ?_
    split
    · exact framed_pure _
    · exact framed_throw _
  · refine (framed_items _).then fun parts => ?_
    split
    · exact framed_pure _
    · exact framed_throw _
  · exact framed_throw _

theorem framed_lower (f : Form) : f.lower.IsFramed 0 := by
  unfold lower
  split
  · exact framed_pure _
  · exact framed_throw _

theorem framed_encodeEach {encode : Form → Visit Written} (each : ∀ f, (encode f).IsFramed 0) (f : Form) :
    (f.encodeEach encode).IsFramed 0 :=
  (framed_items f).then fun fs => (framed_mapM each fs).then fun _ => framed_pure _

/-- What stands in a field, and then what is made of it. -/
theorem framed_field {α : Type} {use : Form → Visit α} {n : Nat} (next : ∀ g, (use g).IsFramed n) (f : Form)
    (name : String) : (f.get name >>= use).IsFramed n :=
  (framed_get f name).then next

/-! ## Terms -/

theorem framed_encodeTypeIn (fuel : Nat) (f : Form) : (encodeTypeIn fuel f).IsFramed 0 := by
  induction fuel generalizing f with
  | zero => exact framed_pure _
  | succ fuel ih =>
    unfold encodeTypeIn
    split
    · refine framed_field (fun name => ?_) _ _
      refine (framed_field framed_items _ _).then fun fs => ?_
      exact (framed_mapM ih fs).then fun _ => framed_pure _
    · exact framed_field (fun g => (framed_lower g).then fun _ => framed_pure _) _ _
    · exact framed_field (fun g => (ih g).then fun _ => framed_pure _) _ _
    · exact framed_field (fun g => framed_pure _) _ _
    · refine framed_field (fun below => framed_field (fun above => ?_) _ _) _ _
      split
      · exact (ih below).then fun _ => framed_pure _
      · split
        · exact (ih above).then fun _ => framed_pure _
        · exact framed_pure _
    · exact framed_field (fun g => (framed_lower g).then fun _ => framed_pure _) _ _
    · exact (framed_text _).then fun _ => (framed_warn _).then fun _ => framed_pure _

theorem framed_encodeType (f : Form) : f.encodeType.IsFramed 0 := framed_encodeTypeIn _ f

theorem framed_encodeNoteWith {value : Form → Visit Written} (each : ∀ f, (value f).IsFramed 0) (f : Form) :
    (encodeNoteWith value f).IsFramed 0 := by
  refine framed_field (fun name => ?_) _ _
  refine (framed_field framed_items _ _).then fun fs => ?_
  refine (framed_mapM (fun argument => ?_) fs).then fun _ => framed_pure _
  exact (framed_pair argument).then fun p => (each p.2).then fun _ => framed_pure _

theorem framed_encodeValueIn (fuel : Nat) (f : Form) : (encodeValueIn fuel f).IsFramed 0 := by
  induction fuel generalizing f with
  | zero => exact framed_pure _
  | succ fuel ih =>
    have unknown : ∀ g : Form, IsFramed 0 (do
        let what ← Visit.text g.describe?
        Visit.warn (.unknownValue what)
        pure (.ok unknownValue) : Visit Written) :=
      fun g => (framed_text _).then fun _ => (framed_warn _).then fun _ => framed_pure _
    unfold encodeValueIn
    split
    · exact framed_pure _
    · split
      · exact framed_pure _
      · exact framed_throw _
    · exact framed_pure _
    · exact framed_pure _
    · exact framed_field (fun g => (framed_text _).then fun _ => framed_pure _) _ _
    · refine framed_field (fun enclosing => framed_field (fun name => ?_) _ _) _ _
      exact (framed_text _).then fun _ => (framed_text _).then fun _ => framed_pure _
    · exact framed_encodeNoteWith ih _
    · exact (framed_mapM ih _).then fun _ => framed_pure _
    · split
      · exact framed_encodeType _
      · exact unknown _
    · exact unknown _

/-! ## The recurring parts of declarations -/

theorem framed_encodeNotes (f : Form) : f.encodeNotes.IsFramed 0 := by
  have value : ∀ v : Form, v.encodeValue.IsFramed 0 := fun v => framed_encodeValueIn (v.depth + 1) v
  exact framed_encodeEach (framed_encodeNoteWith value) f

theorem framed_encodeTypes (f : Form) : f.encodeTypes.IsFramed 0 := framed_encodeEach framed_encodeType f

theorem framed_encodeModifiers (f : Form) : f.encodeModifiers.IsFramed 0 :=
  framed_encodeEach (fun m => (framed_lower m).then fun _ => framed_pure _) f

theorem framed_encodeTypeParameters (f : Form) : f.encodeTypeParameters.IsFramed 0 := by
  refine framed_encodeEach (fun p => ?_) f
  refine framed_field (fun name => framed_field (fun bounds => ?_) _ _) _ _
  refine (framed_encodeTypes bounds).then fun _ => framed_field (fun notes => ?_) _ _
  exact (framed_encodeNotes notes).then fun _ => framed_pure _

theorem framed_encodeParameters (f : Form) : f.encodeParameters.IsFramed 0 := by
  refine framed_encodeEach (fun p => ?_) f
  refine framed_field (fun name => framed_field (fun type => ?_) _ _) _ _
  refine (framed_encodeType type).then fun _ => framed_field (fun modifiers => ?_) _ _
  refine (framed_encodeModifiers modifiers).then fun _ => framed_field (fun notes => ?_) _ _
  exact (framed_encodeNotes notes).then fun _ => framed_pure _

theorem framed_encodeThrows (f : Form) : f.encodeThrows.IsFramed 0 :=
  framed_encodeEach (fun t => (framed_encodeType t).then fun _ => framed_pure _) f

theorem framed_encodeComponents (f : Form) : f.encodeComponents.IsFramed 0 := by
  refine framed_encodeEach (fun c => ?_) f
  refine framed_field (fun name => framed_field (fun type => ?_) _ _) _ _
  refine (framed_encodeType type).then fun _ => framed_field (fun notes => ?_) _ _
  exact (framed_encodeNotes notes).then fun _ => framed_pure _

theorem framed_encodeSupertype (relation : String) (f : Form) : (encodeSupertype relation f).IsFramed 0 :=
  (framed_encodeType f).then fun _ => framed_pure _

theorem framed_encodeExtends (f : Form) : f.encodeExtends.IsFramed 0 := by
  rw [encodeExtends]
  split
  · exact framed_pure _
  · exact framed_encodeSupertype "extends" f

theorem framed_encodeImplements (f : Form) : f.encodeImplements.IsFramed 0 :=
  framed_encodeEach (framed_encodeSupertype "implements") f

theorem framed_encodeNames (f : Form) : f.encodeNames.IsFramed 0 := framed_encodeEach (fun _ => framed_pure _) f

theorem framed_encodeDoc (docs : Bool) (f : Form) : (f.encodeDoc docs).IsFramed 0 := by
  unfold encodeDoc
  split
  · split
    · exact (framed_lift _).then fun _ => framed_pure _
    · exact framed_throw _
  · exact framed_pure _

/-! ## Members -/

theorem framed_callParts (docs : Bool) (f : Form) : (f.callParts docs).IsFramed 0 := by
  refine framed_field (fun parameters => (framed_encodeParameters parameters).then fun _ => ?_) _ _
  refine framed_field (fun throws => (framed_encodeThrows throws).then fun _ => ?_) _ _
  refine framed_field (fun notes => (framed_encodeNotes notes).then fun _ => ?_) _ _
  exact framed_field (fun doc => (framed_encodeDoc docs doc).then fun _ => framed_pure _) _ _

theorem framed_visitExecutable (docs : Bool) (f : Form) : (f.visitExecutable docs).IsFramed 1 := by
  have give : ∀ (m : Written) (c : Tally), IsFramed 1 (do Visit.contribute m; Visit.count c) :=
    fun m c => (framed_contribute m).bind fun _ => framed_count c
  refine framed_field (fun kind => framed_field (fun name => ?_) _ _) _ _
  split
  · refine framed_field (fun modifiers => (framed_encodeModifiers modifiers).then fun _ => ?_) _ _
    refine framed_field (fun parameters => (framed_encodeTypeParameters parameters).then fun _ => ?_) _ _
    refine framed_field (fun type => (framed_encodeType type).then fun _ => ?_) _ _
    exact (framed_callParts docs f).then fun _ => give _ _
  · split
    · refine framed_field (fun modifiers => (framed_encodeModifiers modifiers).then fun _ => ?_) _ _
      refine framed_field (fun parameters => (framed_encodeTypeParameters parameters).then fun _ => ?_) _ _
      exact (framed_callParts docs f).then fun _ => give _ _
    · exact framed_skipWith _ _ _

theorem framed_visitVariable (docs : Bool) (f : Form) : (f.visitVariable docs).IsFramed 1 := by
  refine framed_field (fun kind => framed_field (fun name => ?_) _ _) _ _
  split
  · exact (framed_pure _).weaken (Nat.zero_le 1)
  · split
    · refine framed_field (fun modifiers => (framed_encodeModifiers modifiers).then fun _ => ?_) _ _
      refine framed_field (fun type => (framed_encodeType type).then fun _ => ?_) _ _
      refine framed_field (fun notes => (framed_encodeNotes notes).then fun _ => ?_) _ _
      refine framed_field (fun doc => (framed_encodeDoc docs doc).then fun _ => ?_) _ _
      exact (framed_contribute _).bind fun _ => framed_count _
    · exact framed_skipWith _ _ _

theorem framed_typeFact (docs : Bool) (package f : Form) (members : Written) (shape : TypeShape) :
    (typeFact docs package f members shape).IsFramed 0 := by
  have typeParameters := framed_field framed_encodeTypeParameters f "type_parameters"
  have interfaces := framed_field framed_encodeImplements f "interfaces"
  have notes := framed_field framed_encodeNotes f "annotations"
  have doc := framed_field (framed_encodeDoc docs) f "doc"
  refine framed_field (fun name => ?_) _ _
  refine framed_field (fun modifiers => (framed_encodeModifiers modifiers).then fun _ => ?_) _ _
  cases shape with
  | classType =>
    refine typeParameters.then fun _ => ?_
    refine framed_field (fun superclass => (framed_encodeExtends superclass).then fun _ => ?_) _ _
    refine interfaces.then fun _ => ?_
    refine framed_field (fun permitted => (framed_encodeNames permitted).then fun _ => ?_) _ _
    exact notes.then fun _ => doc.then fun _ => framed_pure _
  | interface =>
    refine typeParameters.then fun _ => interfaces.then fun _ => notes.then fun _ => ?_
    refine framed_field (fun permitted => ?_) _ _
    exact (framed_encodeEach (fun _ => framed_pure _) permitted).then fun _ => doc.then fun _ => framed_pure _
  | enumeration => exact interfaces.then fun _ => notes.then fun _ => doc.then fun _ => framed_pure _
  | annotationType => exact notes.then fun _ => doc.then fun _ => framed_pure _
  | record =>
    refine typeParameters.then fun _ => interfaces.then fun _ => ?_
    refine framed_field (fun components => (framed_encodeComponents components).then fun _ => ?_) _ _
    exact notes.then fun _ => doc.then fun _ => framed_pure _

/-- A type gives one marker to the scope around it, and what its members give stays in its own. -/
theorem framed_visitTypeWith (docs : Bool) (package : Form) {member : Form → Visit Unit}
    (each : ∀ f, (member f).IsFramed 1) (f : Form) : (visitTypeWith docs package member f).IsFramed 1 := by
  refine framed_field (fun kind => ?_) _ _
  split
  · refine framed_field (fun name => ?_) _ _
    refine IsFramed.weaken (m := 0) ((framed_text _).then fun _ => (framed_text _).then fun _ => ?_) (Nat.zero_le 1)
    exact (framed_skip _).then fun _ => framed_pure _
  · refine (framed_field framed_items _ _).then fun members => ?_
    refine (framed_forM each members).inScope.then fun contributions => ?_
    refine (framed_typeFact docs package f _ _).then fun fact => framed_field (fun name => ?_) _ _
    refine (framed_contribute _).bind (n := 0) fun _ => ?_
    exact (framed_write _ _).then fun _ => (framed_count _).then fun _ => framed_pure _

/-- **What the visit of a member leaves alone**: it is framed by one, whatever form stands for the member. -/
theorem framed_visitMember (docs : Bool) (package f : Form) : (visitMember docs package f).IsFramed 1 := by
  have within : ∀ fuel g, (visitMemberIn docs package fuel g).IsFramed 1 := by
    intro fuel
    induction fuel with
    | zero => exact fun g => (framed_pure ()).weaken (Nat.zero_le 1)
    | succ fuel ih =>
      intro g
      unfold visitMemberIn
      split
      · exact (framed_visitTypeWith docs package ih _).bind fun _ => framed_pure ()
      · exact framed_visitExecutable docs _
      · exact framed_visitVariable docs _
      · exact ((framed_text _).then fun _ => framed_skip _).weaken (Nat.zero_le 1)
  exact within (f.depth + 1) f

end Form

end ProgramFacts
