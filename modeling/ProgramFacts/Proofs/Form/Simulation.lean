import ProgramFacts.Proofs.Form.Embedding
import ProgramFacts.Proofs.Form.Frame
import ProgramFacts.Proofs.Walks
import ProgramFacts.Proofs.Writable

/-!
# Visits follow walks

The visit of the form of a declaration does what the walk of the declaration does: it writes, warns and counts the
same, in the same order, and it fails if the walk fails, with the same fault. The walk gives what the declaration
contributes as its result, and the visit puts it into the scope, behind what is there; a visit that fails puts nothing
there.

This is shown for proper declarations with documentation that is absent or a text, from the types and the values in
them upwards.
-/

namespace ProgramFacts

/-! ## Terms that can be written -/

theorem Written.mapM_ok (ts : List Term) : (ts.map Except.ok : List Written).mapM id = .ok ts := by
  induction ts with
  | nil => rfl
  | cons t ts ih =>
    rw [List.map_cons, List.mapM_cons, ih]
    rfl

theorem Written.list_ok (ts : List Term) : Written.list (ts.map Except.ok) = .ok (.list ts) := by
  rw [Written.list, Written.mapM_ok]
  rfl

namespace Visit

variable {α β γ δ : Type}

/-! ## Following -/

/-- The members for the result of a walk; a fault gives none. -/
def given (gives : α → List Written) : Except EncodeFault α → List Written
  | .ok a => gives a
  | .error _ => []

theorem given_nothing (r : Except EncodeFault α) : given (fun _ => []) r = [] := by cases r <;> rfl

/-- Whether a visit does what a walk does, ends with the value for its result, and gives the members for it. -/
def Follows (v : Visit β) (w : Walk α) (value : α → β) (gives : α → List Written) : Prop :=
  ∀ before, v.run.run before = (w.result.map value, before.after w (given gives w.result))

/-- Whether a visit only warns, and does so as it is noted. -/
def Notes (v : Visit β) (n : Noted α) (value : α → β) : Prop := v.Follows (Walk.ofNoted n) value fun _ => []

theorem Follows.bind {x : Visit β} {w : Walk α} {value : α → β} (first : x.Follows w value fun _ => [])
    {f : β → Visit δ} {g : α → Walk γ} {worth : γ → δ} {gives : γ → List Written}
    (next : ∀ a, (f (value a)).Follows (g a) worth gives) : (x >>= f).Follows (w >>= g) worth gives := by
  intro before
  have here := first before
  cases result : w.result with
  | ok a =>
    rw [result] at here
    rw [run_bind_of_ok here, next a, after_after, Walk.bind_of_ok result]
    rfl
  | error e =>
    rw [result] at here
    rw [run_bind_of_error here, Walk.bind_of_error result]
    rfl

theorem follows_pure {value : α → β} {gives : α → List Written} {a : α} {b : β} (same : b = value a)
    (nothing : gives a = []) : (pure b : Visit β).Follows (pure a) value gives := by
  intro before
  subst same
  have unchanged : before.after (pure a : Walk α) (given gives (.ok a)) = before := by
    rw [given, nothing]
    exact after_nothing before _
  rw [Walk.result_pure, unchanged]
  rfl

/-- A visit and a walk that both go on with what they have. -/
theorem Follows.map {v : Visit β} {w : Walk α} {value : α → β} {gives : α → List Written}
    (h : v.Follows w value gives) {f : β → δ} {g : α → γ} {worth : γ → δ} {others : γ → List Written}
    (same : ∀ a, f (value a) = worth (g a)) (alike : ∀ a, gives a = others (g a)) :
    (v >>= fun b => pure (f b)).Follows (w >>= fun a => pure (g a)) worth others := by
  intro before
  have here := h before
  cases result : w.result with
  | ok a =>
    have walk : w >>= (fun a => pure (g a)) = ⟨w.events, w.tally, .ok (g a)⟩ := by
      rw [Walk.bind_of_ok result]
      change (⟨w.events ++ [], w.tally, .ok (g a)⟩ : Walk γ) = _
      rw [List.append_nil]
    rw [result] at here
    rw [run_bind_of_ok here, walk, given, alike, same]
    rfl
  | error e =>
    rw [result] at here
    rw [run_bind_of_error here, Walk.bind_of_error result]
    rfl

theorem follows_lift (r : Except EncodeFault α) (value : α → β) :
    ((liftM r : Visit α) >>= fun a => pure (value a)).Follows (Walk.ofResult r) value fun _ => [] := by
  intro before
  have nothing : given (fun _ => []) (Walk.ofResult r).result = [] := given_nothing r
  have unchanged : before.after (Walk.ofResult r) [] = before := after_nothing before r
  rw [nothing, unchanged]
  cases r <;> rfl

/-- Where a text is missing, the visit and the walk both fail. -/
theorem follows_text (text? : Option String) :
    (text text?).Follows (Walk.ofResult (textOrOversized text?)) id fun _ => [] := by
  have lifted := follows_lift (textOrOversized text?) id
  rwa [bind_pure_comp, id_map] at lifted

/-- What is noted first comes first in a walk. -/
theorem Notes.bind {x : Visit β} {n : Noted α} {value : α → β} (first : x.Notes n value)
    {f : β → Visit δ} {g : α → Walk γ} {worth : γ → δ} {gives : γ → List Written}
    (next : ∀ a, (f (value a)).Follows (g a) worth gives) :
    (x >>= f).Follows (Walk.ofNoted n >>= g) worth gives :=
  Follows.bind first next

theorem ofNoted_bind (x : Noted α) (f : α → Noted β) :
    Walk.ofNoted (x >>= f) = Walk.ofNoted x >>= fun a => Walk.ofNoted (f a) := by
  cases result : x.result with
  | ok a =>
    rw [Noted.bind_eq_of_ok result, Walk.bind_of_ok (x := Walk.ofNoted x) result]
    simp only [Walk.ofNoted, List.map_append]
    rfl
  | error e =>
    rw [Noted.bind_eq_of_error result, Walk.bind_of_error (x := Walk.ofNoted x) result]
    rfl

theorem Notes.then {x : Visit β} {n : Noted α} {value : α → β} (first : x.Notes n value)
    {f : β → Visit δ} {g : α → Noted γ} {worth : γ → δ} (next : ∀ a, (f (value a)).Notes (g a) worth) :
    (x >>= f).Notes (n >>= g) worth := by
  rw [Notes, ofNoted_bind]
  exact Follows.bind first next

theorem notes_pure {value : α → β} {a : α} {b : β} (same : b = value a) :
    (pure b : Visit β).Notes (pure a) value :=
  follows_pure same rfl

theorem notes_warn {value : α → β} {a : α} {b : β} (w : Warning) (same : b = value a) :
    (warn w >>= fun _ => (pure b : Visit β)).Notes (Noted.warn w a) value := by
  intro before
  subst same
  simp only [Trace.after, given, Walk.ofNoted, Noted.warn, List.map_cons, List.map_nil, List.append_nil]
  rfl

theorem notes_throw {value : α → β} (e : EncodeFault) : (throw e : Visit β).Notes (Noted.fail e) value := by
  intro before
  have unchanged : before.after (Walk.ofNoted (Noted.fail e : Noted α)) [] = before := after_nothing before _
  change _ = (_, before.after (Walk.ofNoted (Noted.fail e : Noted α)) [])
  rw [unchanged]
  rfl

/-- What is known goes before without a trace. -/
theorem follows_known {x : Visit δ} {d : δ} (known : x = pure d) {use : δ → Visit β} {w : Walk α} {value : α → β}
    {gives : α → List Written} (next : (use d).Follows w value gives) : (x >>= use).Follows w value gives := by
  rw [known, pure_bind]
  exact next

/-- What stands in a field is there to go on with. -/
theorem follows_field {s : FormSort} {fields : List (String × Form)} {name : String} {f : Form}
    (found : fields.lookup name = some f) {use : Form → Visit β} {w : Walk α} {value : α → β}
    {gives : α → List Written} (next : (use f).Follows w value gives) :
    ((Form.record s fields).get name >>= use).Follows w value gives :=
  follows_known (by simp [Form.get, Form.field?, found]) next

theorem follows_items {s : FormSort} {fields : List (String × Form)} {name : String} {fs : List Form}
    (found : fields.lookup name = some (.tuple fs)) {use : List Form → Visit β} {w : Walk α} {value : α → β}
    {gives : α → List Written} (next : (use fs).Follows w value gives) :
    ((Form.record s fields).itemsOf name >>= use).Follows w value gives :=
  follows_known (by simp [Form.itemsOf, Form.get, Form.field?, Form.items, found]) next

/-- Several things in order. -/
theorem notes_mapM {part : γ → Form} {encode : Form → Visit β} {note : γ → Noted α} {value : α → β} (cs : List γ)
    (each : ∀ c ∈ cs, (encode (part c)).Notes (note c) value) :
    ((cs.map part).mapM encode).Notes (Noted.each note cs) (List.map value) := by
  induction cs with
  | nil =>
    rw [List.map_nil, List.mapM_nil, Noted.each]
    exact notes_pure rfl
  | cons c cs ih =>
    rw [List.map_cons, List.mapM_cons, Noted.each]
    refine (each c List.mem_cons_self).then fun a => ?_
    exact (ih fun d member => each d (List.mem_cons_of_mem c member)).then fun as => notes_pure rfl

/-- The terms of several things, as a list from which something is built. -/
theorem notes_terms {part : γ → Form} {encode : Form → Visit Written} {note : γ → Noted Term}
    (build : Written → Written) {term : List Term → Term} (cs : List γ)
    (each : ∀ c ∈ cs, (encode (part c)).Notes (note c) Except.ok)
    (built : ∀ ts, build (.ok (.list ts)) = .ok (term ts)) :
    ((cs.map part).mapM encode >>= fun ts => pure (build (Written.list ts))).Notes
      (Noted.each note cs >>= fun ts => pure (term ts)) Except.ok := by
  have terms : ((cs.map part).mapM encode).Notes (Noted.each note cs) (List.map Except.ok) := notes_mapM cs each
  refine terms.then fun ts => notes_pure ?_
  rw [Written.list_ok, built]

end Visit

/-- A part that is known by its kind and its description can be described. -/
theorem Form.describe?_ofKind (sort : FormSort) (kind description : String) :
    (Form.ofKind sort kind description).describe? = some (Form.ofKind sort kind description).describe := by
  have detail : (Form.ofKind sort kind description).detail.isWritable = true := by
    change (((some (Form.text description)).filter Form.isGiven).getD _).isWritable = true
    rw [Option.filter_some]
    split <;> rfl
  have describable : (Form.ofKind sort kind description).isDescribable = true := detail
  rw [Form.describe?, if_pos describable]

/-! ## Types -/

open Visit (follows_known follows_field follows_items notes_pure notes_warn notes_terms notes_throw)

theorem TypeExpr.encodeList_eq_each (ts : List TypeExpr) :
    TypeExpr.encodeList ts = Noted.each TypeExpr.encode ts := by
  induction ts with
  | nil => rw [TypeExpr.encodeList, Noted.each]
  | cons t ts ih => rw [TypeExpr.encodeList, Noted.each, ih]

theorem Form.not_null_ne_null : ¬(Form.null != Form.null) = true := by decide

theorem TypeExpr.asForm_ne_null {t : TypeExpr} (proper : t.isProper = true) : (t.asForm != Form.null) = true := by
  cases t with
  | stray f => cases proper
  | _ => rfl

mutual

theorem TypeExpr.notes_encodeIn : ∀ t : TypeExpr, t.isProper = true → ∀ fuel, t.asForm.depth < fuel →
    (Form.encodeTypeIn fuel t.asForm).Notes t.encode Except.ok
  | _, _, 0, short => absurd short (Nat.not_lt_zero _)
  | .declared n ts, proper, fuel + 1, deep => by
    rw [TypeExpr.asForm, TypeExpr.asForms_eq_map] at deep ⊢
    have within := Form.depth_field deep "type_arguments" rfl
    rw [TypeExpr.encode, TypeExpr.encodeList_eq_each]
    refine follows_field rfl (follows_items rfl ?_)
    refine notes_terms (fun l => Written.compound "declared_type" [.ok (.atom n), l]) ts ?_ fun _ => rfl
    intro t member
    refine TypeExpr.notes_encodeAll ts proper t member fuel ?_
    exact Form.depth_item (Nat.lt_succ_of_lt within) (List.mem_map_of_mem member)
  | .primitive k, _, fuel + 1, _ => by
    rw [TypeExpr.encode]
    exact follows_field rfl (follows_known rfl (notes_pure rfl))
  | .array t, proper, fuel + 1, deep => by
    rw [TypeExpr.asForm] at deep ⊢
    have within := Form.depth_field deep "component" rfl
    rw [TypeExpr.encode]
    exact follows_field rfl ((TypeExpr.notes_encodeIn t proper fuel within).then fun _ => notes_pure rfl)
  | .typeVariable n, _, fuel + 1, _ => by
    rw [TypeExpr.encode]
    exact follows_field rfl (notes_pure rfl)
  | .wildcard (some t) above, proper, fuel + 1, deep => by
    rw [TypeExpr.isProper, TypeExpr.isProperOrNone, Bool.and_eq_true] at proper
    rw [TypeExpr.asForm, TypeExpr.asFormOrNull] at deep ⊢
    have within := Form.depth_field deep "extends_bound" rfl
    rw [TypeExpr.encode]
    refine follows_field rfl (follows_field rfl ?_)
    rw [if_pos (TypeExpr.asForm_ne_null proper.1)]
    exact (TypeExpr.notes_encodeIn t proper.1 fuel within).then fun _ => notes_pure rfl
  | .wildcard none (some t), proper, fuel + 1, deep => by
    rw [TypeExpr.isProper, TypeExpr.isProperOrNone, TypeExpr.isProperOrNone, Bool.true_and] at proper
    rw [TypeExpr.asForm, TypeExpr.asFormOrNull, TypeExpr.asFormOrNull] at deep ⊢
    have within := Form.depth_field deep "super_bound" rfl
    rw [TypeExpr.encode]
    refine follows_field rfl (follows_field rfl ?_)
    rw [if_neg Form.not_null_ne_null, if_pos (TypeExpr.asForm_ne_null proper)]
    exact (TypeExpr.notes_encodeIn t proper fuel within).then fun _ => notes_pure rfl
  | .wildcard none none, _, fuel + 1, _ => by
    rw [TypeExpr.encode]
    refine follows_field rfl (follows_field rfl ?_)
    rw [TypeExpr.asFormOrNull, if_neg Form.not_null_ne_null, if_neg Form.not_null_ne_null]
    exact notes_pure rfl
  | .noType k, _, fuel + 1, _ => by
    rw [TypeExpr.encode]
    exact follows_field rfl (follows_known rfl (notes_pure rfl))
  | .other k d, _, fuel + 1, _ => by
    rw [TypeExpr.encode]
    exact follows_known (congrArg Visit.text (Form.describe?_ofKind .otherType k d)) (notes_warn _ rfl)
  | .stray f, proper, _, _ => by cases proper

theorem TypeExpr.notes_encodeAll : ∀ ts : List TypeExpr, TypeExpr.areProper ts = true → ∀ t ∈ ts,
    ∀ fuel, t.asForm.depth < fuel → (Form.encodeTypeIn fuel t.asForm).Notes t.encode Except.ok
  | [], _, _, member => absurd member List.not_mem_nil
  | t :: ts, proper, u, member => by
    rw [TypeExpr.areProper, Bool.and_eq_true] at proper
    rcases List.mem_cons.1 member with here | later
    · rw [here]
      exact TypeExpr.notes_encodeIn t proper.1
    · exact TypeExpr.notes_encodeAll ts proper.2 u later

end

theorem TypeExpr.notes_encode {t : TypeExpr} (proper : t.isProper = true) :
    t.asForm.encodeType.Notes t.encode Except.ok :=
  TypeExpr.notes_encodeIn t proper _ (Nat.lt_succ_self _)

/-! ## Values and annotations -/

theorem Noted.bind_pure_bind {α β γ : Type} (x : Noted α) (f : α → β) (g : β → Noted γ) :
    (x >>= fun a => pure (f a)) >>= g = x >>= fun a => g (f a) := by
  cases result : x.result with
  | ok a =>
    rw [Noted.bind_eq_of_ok result, Noted.bind_eq_of_ok result, Noted.bind_eq_of_ok rfl]
    simp
  | error e => rw [Noted.bind_eq_of_error result, Noted.bind_eq_of_error result, Noted.bind_eq_of_error rfl]

/-- The term of an argument: its label and its value. -/
def Value.encodeArgument (a : String × Value) : Noted Term := do
  let t ← a.2.encode
  pure (.compound "annotation_argument" [.atom a.1, t])

theorem Value.encodeList_eq_each (vs : List Value) : Value.encodeList vs = Noted.each Value.encode vs := by
  induction vs with
  | nil => rw [Value.encodeList, Noted.each]
  | cons v vs ih => rw [Value.encodeList, Noted.each, ih]

theorem Value.encodeArguments_eq_each (vs : List (String × Value)) :
    Value.encodeArguments vs = Noted.each Value.encodeArgument vs := by
  induction vs with
  | nil => rw [Value.encodeArguments, Noted.each]
  | cons v vs ih => rw [Value.encodeArguments, Noted.each, ih, Value.encodeArgument, Noted.bind_pure_bind]

theorem notes_encodeNoteWith {value : Form → Visit Written} (n : String) (vs : List (String × Value))
    (each : ∀ a ∈ vs, (value a.2.asForm).Notes a.2.encode Except.ok) :
    (Form.encodeNoteWith value
      (.record .note [("qualified_name", .text n), ("arguments", .tuple (Value.argumentForms vs))])).Notes
      (Value.encodeArguments vs >>= fun as => pure (annotationTerm n as)) Except.ok := by
  rw [Value.argumentForms_eq_map, Value.encodeArguments_eq_each]
  refine follows_field rfl (follows_items rfl ?_)
  refine notes_terms (fun l => Written.compound "annotation" [.ok (.atom n), l]) vs ?_ fun _ => rfl
  intro a member
  exact follows_known rfl ((each a member).then fun _ => notes_pure rfl)

mutual

theorem Value.notes_encodeIn : ∀ v : Value, v.isProper = true → ∀ fuel, v.asForm.depth < fuel →
    (Form.encodeValueIn fuel v.asForm).Notes v.encode Except.ok
  | _, _, 0, short => absurd short (Nat.not_lt_zero _)
  | .bool b, _, fuel + 1, _ => by
    rw [Value.encode]
    exact notes_pure rfl
  | .integer n, _, fuel + 1, _ => by
    rw [Value.encode, Value.asForm, Form.encodeValueIn]
    split
    · exact notes_pure rfl
    · exact notes_throw _
  | .number x, _, fuel + 1, _ => by
    rw [Value.encode]
    exact notes_pure rfl
  | .text s, _, fuel + 1, _ => by
    rw [Value.encode]
    exact notes_pure rfl
  | .char s, _, fuel + 1, _ => by
    rw [Value.encode]
    refine follows_field rfl ?_
    exact follows_known (d := s) rfl (notes_pure rfl)
  | .enumConstant e n, _, fuel + 1, _ => by
    rw [Value.encode]
    refine follows_field rfl (follows_field rfl ?_)
    exact follows_known (d := e) rfl (follows_known (d := n) rfl (notes_pure rfl))
  | .nested n vs, proper, fuel + 1, deep => by
    rw [Value.asForm] at deep ⊢
    have within := Form.depth_field deep "arguments" rfl
    rw [Value.argumentForms_eq_map] at within
    rw [Value.encode]
    refine notes_encodeNoteWith n vs fun a member => Value.notes_encodeArguments vs proper a member fuel ?_
    have argument := Form.depth_item (Nat.lt_succ_of_lt within) (List.mem_map_of_mem member)
    exact Form.depth_item (Nat.lt_succ_of_lt argument) (List.mem_cons_of_mem _ List.mem_cons_self)
  | .list vs, proper, fuel + 1, deep => by
    rw [Value.asForm, Value.asForms_eq_map] at deep ⊢
    rw [Value.encode, Value.encodeList_eq_each]
    refine notes_terms (fun l => l) vs ?_ fun _ => rfl
    intro v member
    refine Value.notes_encodeAll vs proper v member fuel ?_
    exact Form.depth_item deep (List.mem_map_of_mem member)
  | .type t, proper, fuel + 1, _ => by
    have type := TypeExpr.notes_encode (t := t) proper
    rw [Value.encode]
    cases t with
    | stray f => cases proper
    | _ => exact type
  | .other k d, _, fuel + 1, _ => by
    rw [Value.encode]
    exact follows_known (congrArg Visit.text (Form.describe?_ofKind .otherValue k d)) (notes_warn _ rfl)
  | .stray f, proper, _, _ => by cases proper

theorem Value.notes_encodeAll : ∀ vs : List Value, Value.areProper vs = true → ∀ v ∈ vs,
    ∀ fuel, v.asForm.depth < fuel → (Form.encodeValueIn fuel v.asForm).Notes v.encode Except.ok
  | [], _, _, member => absurd member List.not_mem_nil
  | v :: vs, proper, u, member => by
    rw [Value.areProper, Bool.and_eq_true] at proper
    rcases List.mem_cons.1 member with here | later
    · rw [here]
      exact Value.notes_encodeIn v proper.1
    · exact Value.notes_encodeAll vs proper.2 u later

theorem Value.notes_encodeArguments : ∀ vs : List (String × Value), Value.areArgumentsProper vs = true → ∀ a ∈ vs,
    ∀ fuel, a.2.asForm.depth < fuel → (Form.encodeValueIn fuel a.2.asForm).Notes a.2.encode Except.ok
  | [], _, _, member => absurd member List.not_mem_nil
  | (_, v) :: vs, proper, a, member => by
    rw [Value.areArgumentsProper, Bool.and_eq_true] at proper
    rcases List.mem_cons.1 member with here | later
    · rw [here]
      exact Value.notes_encodeIn v proper.1
    · exact Value.notes_encodeArguments vs proper.2 a later

end

end ProgramFacts
