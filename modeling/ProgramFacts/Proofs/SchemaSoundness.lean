import ProgramFacts.Proofs.Schema

/-!
# Facts follow the signature

Each way to build a term gives one of the sort that the signature asks for at its place: first types and values, then
the recurring parts of declarations, then members and the facts of types, modules and packages. The walk itself adds
nothing, since what it writes for a subject is the fact that the subject's own walk gives.
-/

namespace ProgramFacts

/-! ## What encodings come to -/

namespace Noted

variable {α β : Type}

/-- Whether all that an encoding can come to has a property. -/
def Ends (P : α → Prop) (n : Noted α) : Prop := ∀ a, n.result = .ok a → P a

/-- Whether the term that an encoding comes to is of a sort. -/
def Sorted (s : TermSort) (n : Noted Term) : Prop := n.Ends fun t => t.hasSort s = true

theorem ends_pure {P : α → Prop} {a : α} (h : P a) : (pure a : Noted α).Ends P := by
  intro b same
  cases same
  exact h

theorem ends_warn {P : α → Prop} {a : α} (w : Warning) (h : P a) : (warn w a).Ends P := by
  intro b same
  cases same
  exact h

theorem Ends.bind {P : α → Prop} {Q : β → Prop} {x : Noted α} {f : α → Noted β} (first : x.Ends P)
    (next : ∀ a, P a → (f a).Ends Q) : (x >>= f).Ends Q := by
  intro b ended
  cases h : x.result with
  | ok a =>
    rw [bind_eq_of_ok h] at ended
    exact next a (first a h) b ended
  | error e =>
    rw [bind_eq_of_error h] at ended
    cases ended

/-- What comes first does not matter. -/
theorem ends_after {Q : β → Prop} {x : Noted α} {f : α → Noted β} (next : ∀ a, (f a).Ends Q) : (x >>= f).Ends Q :=
  Ends.bind (fun _ _ => trivial) fun a (_ : True) => next a

/-- What only builds something from the result. -/
theorem Ends.map {P : α → Prop} {Q : β → Prop} {x : Noted α} {f : α → β} (first : x.Ends P)
    (build : ∀ a, P a → Q (f a)) : (x >>= fun a => pure (f a)).Ends Q :=
  first.bind fun a h => ends_pure (build a h)

theorem Ends.cons {P : α → Prop} {x : Noted α} {xs : Noted (List α)} (first : x.Ends P)
    (others : xs.Ends fun as => ∀ a ∈ as, P a) :
    (x >>= fun a => xs >>= fun as => pure (a :: as)).Ends fun as => ∀ a ∈ as, P a := by
  refine first.bind fun a here => others.map fun as there => ?_
  simpa using ⟨here, there⟩

theorem ends_each_mem {P : β → Prop} {f : α → Noted β} {as : List α} (one : ∀ a ∈ as, (f a).Ends P) :
    (each f as).Ends fun bs => ∀ b ∈ bs, P b := by
  induction as with
  | nil => exact ends_pure (by simp)
  | cons a as ih =>
    obtain ⟨first, others⟩ := List.forall_mem_cons.1 one
    exact first.cons (ih others)

theorem ends_each {P : β → Prop} {f : α → Noted β} (one : ∀ a, (f a).Ends P) (as : List α) :
    (each f as).Ends fun bs => ∀ b ∈ bs, P b :=
  ends_each_mem fun a _ => one a

/-- A list of terms that are of one sort. -/
theorem Ends.list {s : TermSort} {n : Noted (List Term)} (all : n.Ends fun ts => ∀ t ∈ ts, t.hasSort s = true) :
    (n >>= fun ts => pure (.list ts)).Sorted (.list s) :=
  all.map fun _ sorted => Term.hasSort_list.2 sorted

end Noted

/-- What is known of a part is known in the rest of a walk. -/
theorem Walk.ends_ofNoted {α β : Type} {P : α → Prop} {n : Noted α} {f : α → Walk β} {Q : β → Prop}
    (first : n.Ends P) (next : ∀ a, P a → (f a).Ends Q) : (Walk.ofNoted n >>= f).Ends Q :=
  Walk.ends_bind fun a ended => next a (first a ended)

/-- A part that is of its sort comes before the rest of a walk. -/
theorem Walk.ends_sorted {β : Type} {s : TermSort} {n : Noted Term} {f : Term → Walk β} {Q : β → Prop}
    (first : n.Sorted s) (next : ∀ t, t.hasSort s = true → (f t).Ends Q) : (Walk.ofNoted n >>= f).Ends Q :=
  Walk.ends_ofNoted first next

/-- What one part may give comes before what the others give. -/
theorem Walk.ends_toList_append {α : Type} {P : α → Prop} {x : Walk (Option α)} {xs : Walk (List α)}
    (first : x.Ends fun m => ∀ a ∈ m, P a) (others : xs.Ends fun as => ∀ a ∈ as, P a) :
    (x >>= fun m => xs >>= fun as => pure (m.toList ++ as)).Ends fun as => ∀ a ∈ as, P a := by
  refine Walk.ends_bind fun m here => Walk.ends_bind fun as there => Walk.ends_pure fun a member => ?_
  rcases List.mem_append.1 member with one | later
  · exact first m here a (Option.mem_toList.1 one)
  · exact others as there a later

open Noted (ends_pure ends_warn ends_after ends_each)
open Term (hasSort_compound hasSort_list)

/-! ## Types and values -/

theorem declaredTerm_sorted (name : String) {arguments : List Term} (sorted : ∀ t ∈ arguments, t.hasSort .type = true) :
    (declaredTerm name arguments).hasSort .type = true := by
  refine hasSort_compound (by decide) rfl ?_
  simp [TermSort.allowsAtom, hasSort_list.2 sorted]

theorem typeTerm_sorted {form : String} (known : TermSort.typeForm.allowsAtom form = true) {operand : Term}
    (sorted : operand.hasSort .operand = true) : (typeTerm form operand).hasSort .type = true := by
  refine hasSort_compound (by decide) rfl ?_
  simp [known, sorted]

theorem annotationTerm_sorted (name : String) {arguments : List Term}
    (sorted : ∀ t ∈ arguments, t.hasSort (.named "annotation_argument") = true) :
    (annotationTerm name arguments).hasSort (.named "annotation") = true := by
  refine hasSort_compound (by decide) rfl ?_
  simp [TermSort.allowsAtom, hasSort_list.2 sorted]

mutual

theorem TypeExpr.encode_sorted : ∀ t : TypeExpr, t.encode.Sorted .type
  | .declared n ts => by
    rw [TypeExpr.encode]
    exact (TypeExpr.encodeList_sorted ts).map fun _ sorted => declaredTerm_sorted n sorted
  | .primitive _ => by
    rw [TypeExpr.encode]
    exact ends_pure (typeTerm_sorted (by decide) rfl)
  | .array t => by
    rw [TypeExpr.encode]
    exact t.encode_sorted.map fun _ sorted => typeTerm_sorted (by decide) (Term.operand_of_type sorted)
  | .typeVariable _ => by
    rw [TypeExpr.encode]
    exact ends_pure (typeTerm_sorted (by decide) rfl)
  | .wildcard (some t) _ => by
    rw [TypeExpr.encode]
    exact t.encode_sorted.map fun _ sorted => typeTerm_sorted (by decide) (Term.operand_of_type sorted)
  | .wildcard none (some t) => by
    rw [TypeExpr.encode]
    exact t.encode_sorted.map fun _ sorted => typeTerm_sorted (by decide) (Term.operand_of_type sorted)
  | .wildcard none none => by
    rw [TypeExpr.encode]
    exact ends_pure (typeTerm_sorted (by decide) rfl)
  | .noType _ => by
    rw [TypeExpr.encode]
    exact ends_pure (typeTerm_sorted (by decide) rfl)
  | .other _ _ => by
    rw [TypeExpr.encode]
    exact ends_warn _ rfl
  | .stray _ => by
    rw [TypeExpr.encode]
    exact ends_after fun _ => ends_warn _ rfl

theorem TypeExpr.encodeList_sorted :
    ∀ ts : List TypeExpr, (TypeExpr.encodeList ts).Ends fun us => ∀ u ∈ us, u.hasSort .type = true
  | [] => by
    rw [TypeExpr.encodeList]
    exact ends_pure (by simp)
  | t :: ts => by
    rw [TypeExpr.encodeList]
    exact t.encode_sorted.cons (TypeExpr.encodeList_sorted ts)

end

theorem Term.value_of_annotation {t : Term} (h : t.hasSort (.named "annotation") = true) : t.hasSort .value = true := by
  refine Term.hasSort_of_le ?_ ?_ ?_ h
  · exact fun _ _ => rfl
  · simp [TermSort.functors]
  · simp [TermSort.element?]

mutual

theorem Value.encode_sorted : ∀ v : Value, v.encode.Sorted .value
  | .bool _ => by
    rw [Value.encode]
    exact ends_pure rfl
  | .integer n => by
    rw [Value.encode]
    split
    · exact ends_pure rfl
    · intro t impossible
      cases impossible
  | .number _ => by
    rw [Value.encode]
    exact ends_pure rfl
  | .text _ => by
    rw [Value.encode]
    exact ends_pure rfl
  | .char _ => by
    rw [Value.encode]
    exact ends_pure rfl
  | .enumConstant _ _ => by
    rw [Value.encode]
    exact ends_pure rfl
  | .nested n vs => by
    rw [Value.encode]
    exact (Value.encodeArguments_sorted vs).map fun _ sorted =>
      Term.value_of_annotation (annotationTerm_sorted n sorted)
  | .list vs => by
    rw [Value.encode]
    refine (Value.encodeList_sorted vs).map fun ts sorted => ?_
    rw [Term.hasSort]
    exact Term.allHaveSort_iff.2 sorted
  | .type t => by
    rw [Value.encode]
    exact fun u ended => Term.value_of_type (t.encode_sorted u ended)
  | .other _ _ => by
    rw [Value.encode]
    exact ends_warn _ rfl
  | .stray _ => by
    rw [Value.encode]
    exact ends_after fun _ => ends_warn _ rfl

theorem Value.encodeList_sorted :
    ∀ vs : List Value, (Value.encodeList vs).Ends fun ts => ∀ t ∈ ts, t.hasSort .value = true
  | [] => by
    rw [Value.encodeList]
    exact ends_pure (by simp)
  | v :: vs => by
    rw [Value.encodeList]
    exact v.encode_sorted.cons (Value.encodeList_sorted vs)

theorem Value.encodeArguments_sorted : ∀ vs : List (String × Value),
    (Value.encodeArguments vs).Ends fun ts => ∀ t ∈ ts, t.hasSort (.named "annotation_argument") = true
  | [] => by
    rw [Value.encodeArguments]
    exact ends_pure (by simp)
  | (n, v) :: vs => by
    rw [Value.encodeArguments]
    refine v.encode_sorted.bind fun t here => (Value.encodeArguments_sorted vs).map fun ts there => ?_
    have argument : (Term.compound "annotation_argument" [.atom n, t]).hasSort (.named "annotation_argument") = true :=
      hasSort_compound (by decide) rfl (by simp [TermSort.allowsAtom, here])
    simpa using ⟨argument, there⟩

end

/-! ## The recurring parts of declarations -/

theorem encodeAnnotations_sorted (as : List Annotation) : (encodeAnnotations as).Sorted .annotations := by
  refine (ends_each (fun a => ?_) as).list
  exact (Value.encodeArguments_sorted a.arguments).map fun _ sorted => annotationTerm_sorted a.name sorted

theorem encodeModifiers_sorted (ms : List String) : (encodeModifiers ms).hasSort .modifiers = true := by
  refine hasSort_list.2 fun t member => ?_
  obtain ⟨m, -, rfl⟩ := List.mem_map.1 member
  exact hasSort_compound (by decide) rfl rfl

theorem atoms_sorted (names : List String) : (atoms names).hasSort (.list .atom) = true := by
  refine hasSort_list.2 fun t member => ?_
  obtain ⟨n, -, rfl⟩ := List.mem_map.1 member
  rfl

theorem encodeTypes_sorted (ts : List TypeExpr) : (encodeTypes ts).Sorted (.list .type) :=
  (TypeExpr.encodeList_sorted ts).list

theorem encodeTypeParameters_sorted (ps : List TypeParameter) :
    (encodeTypeParameters ps).Sorted .typeParameters := by
  refine (ends_each (fun p => ?_) ps).list
  refine (encodeTypes_sorted p.bounds).bind fun bounds hb => ?_
  refine (encodeAnnotations_sorted p.annotations).map fun notes hn => ?_
  exact hasSort_compound (by decide) rfl (by simp [TermSort.allowsAtom, hb, hn])

theorem encodeParameters_sorted (ps : List Parameter) : (encodeParameters ps).Sorted .parameters := by
  refine (ends_each (fun p => ?_) ps).list
  refine p.type.encode_sorted.bind fun type ht => (encodeAnnotations_sorted p.annotations).map fun notes hn => ?_
  have hm := encodeModifiers_sorted p.modifiers
  exact hasSort_compound (by decide) rfl (by simp [TermSort.allowsAtom, ht, hm, hn])

theorem encodeThrows_sorted (ts : List TypeExpr) : (encodeThrows ts).Sorted .throws := by
  refine (ends_each (fun t => ?_) ts).list
  refine t.encode_sorted.map fun type ht => ?_
  exact hasSort_compound (by decide) rfl (by simp [ht])

theorem encodeComponents_sorted (cs : List RecordComponent) :
    (encodeComponents cs).Sorted (.list (.named "record_component")) := by
  refine (ends_each (fun c => ?_) cs).list
  refine c.type.encode_sorted.bind fun type ht => (encodeAnnotations_sorted c.annotations).map fun notes hn => ?_
  exact hasSort_compound (by decide) rfl (by simp [TermSort.allowsAtom, ht, hn])

theorem encodeImplements_sorted (ts : List TypeExpr) : (encodeImplements ts).Sorted .interfaces := by
  refine (ends_each (fun t => ?_) ts).list
  refine t.encode_sorted.map fun type ht => ?_
  exact hasSort_compound (by decide) rfl (by simp [TermSort.allowsAtom, ht])

theorem encodeExtends_sorted (t? : Option TypeExpr) : (encodeExtends t?).Sorted .superclass := by
  cases t? with
  | none => exact ends_pure rfl
  | some t =>
    rw [encodeExtends]
    split
    · exact ends_pure rfl
    · refine t.encode_sorted.map fun type ht => ?_
      exact hasSort_compound (by decide) rfl (by simp [TermSort.allowsAtom, ht])

theorem encodeDoc_sorted (docs : Bool) (doc : Document) :
    (Walk.ofResult (encodeDoc docs doc)).Ends fun t => t.hasSort .atom = true := by
  intro t ended
  change encodeDoc docs doc = .ok t at ended
  unfold encodeDoc at ended
  split at ended
  · split at ended <;> cases ended
    rfl
  · cases ended
    rfl

/-! ## Members and types -/

open Walk (ends_sorted ends_bind)

theorem Executable.visit_sorted (docs : Bool) (e : Executable) :
    (e.visit docs).Ends fun m => ∀ t ∈ m, t.hasSort .member = true := by
  have hm := encodeModifiers_sorted e.modifiers
  rw [Executable.visit]
  split
  · refine ends_sorted (encodeTypeParameters_sorted _) fun typeParameters htp => ?_
    refine ends_sorted e.returnType.encode_sorted fun returnType hr => ?_
    refine ends_sorted (encodeParameters_sorted _) fun parameters hp => ?_
    refine ends_sorted (encodeThrows_sorted _) fun throws ht => ?_
    refine ends_sorted (encodeAnnotations_sorted _) fun notes hn => ends_bind fun doc ended => ?_
    have hd := encodeDoc_sorted docs e.doc doc ended
    refine ends_bind fun _ _ => Walk.ends_pure fun t same => ?_
    cases same
    exact hasSort_compound (by decide) rfl (by simp [TermSort.allowsAtom, hm, htp, hr, hp, ht, hn, hd])
  · split
    · refine ends_sorted (encodeTypeParameters_sorted _) fun typeParameters htp => ?_
      refine ends_sorted (encodeParameters_sorted _) fun parameters hp => ?_
      refine ends_sorted (encodeThrows_sorted _) fun throws ht => ?_
      refine ends_sorted (encodeAnnotations_sorted _) fun notes hn => ends_bind fun doc ended => ?_
      have hd := encodeDoc_sorted docs e.doc doc ended
      refine ends_bind fun _ _ => Walk.ends_pure fun t same => ?_
      cases same
      exact hasSort_compound (by decide) rfl (by simp [TermSort.allowsAtom, hm, htp, hp, ht, hn, hd])
    · exact ends_bind fun _ _ => Walk.ends_pure (by simp)

theorem Variable.visit_sorted (docs : Bool) (v : Variable) :
    (v.visit docs).Ends fun m => ∀ t ∈ m, t.hasSort .member = true := by
  have hm := encodeModifiers_sorted v.modifiers
  rw [Variable.visit]
  split
  · exact Walk.ends_pure (by simp)
  · split
    · refine ends_sorted v.type.encode_sorted fun type ht => ?_
      refine ends_sorted (encodeAnnotations_sorted _) fun notes hn => ends_bind fun doc ended => ?_
      have hd := encodeDoc_sorted docs v.doc doc ended
      refine ends_bind fun _ _ => Walk.ends_pure fun t same => ?_
      cases same
      exact hasSort_compound (by decide) rfl (by simp [TermSort.allowsAtom, hm, ht, hn, hd])
    · exact ends_bind fun _ _ => Walk.ends_pure (by simp)

theorem TypeHead.marker_sorted (t : TypeHead) : t.marker.hasSort (.named "type_declaration") = true :=
  hasSort_compound (by decide) rfl rfl

/-- What is left of a type in the scope around it is a marker, whatever is in the type. -/
theorem visitMember_ofType_ends (docs : Bool) (package : String) (t : TypeHead) (ds : List Declaration) :
    (visitMember docs package (.ofType t ds)).Ends fun m => ∀ u ∈ m, u = t.marker := by
  rw [visitMember]
  refine ends_bind fun f _ => Walk.ends_pure fun u member => ?_
  obtain ⟨-, -, rfl⟩ := Option.map_eq_some_iff.1 member
  rfl

theorem visitMember_sorted (docs : Bool) (package : String) (d : Declaration) :
    (visitMember docs package d).Ends fun m => ∀ t ∈ m, t.hasSort .member = true := by
  cases d with
  | ofType t ds =>
    intro m ended u member
    rw [visitMember_ofType_ends docs package t ds m ended u member]
    exact hasSort_compound (by decide) rfl rfl
  | ofExecutable e =>
    rw [visitMember]
    exact e.visit_sorted docs
  | ofVariable v =>
    rw [visitMember]
    exact v.visit_sorted docs
  | stray f =>
    rw [visitMember]
    exact ends_bind fun _ _ => Walk.ends_pure (by simp)

theorem visitMembers_sorted (docs : Bool) (package : String) (ds : List Declaration) :
    (visitMembers docs package ds).Ends fun ms => ∀ t ∈ ms, t.hasSort .member = true := by
  induction ds with
  | nil =>
    rw [visitMembers]
    exact Walk.ends_pure (by simp)
  | cons d ds ih =>
    rw [visitMembers]
    exact Walk.ends_toList_append (visitMember_sorted docs package d) ih

theorem TypeHead.fact_sorted (docs : Bool) (package : String) (t : TypeHead) {ms : List Term}
    (members : ∀ m ∈ ms, m.hasSort .member = true) (shape : TypeShape) :
    (t.fact docs package ms shape).Ends fun f => f.hasSort .typeFact = true := by
  have hm := encodeModifiers_sorted t.modifiers
  have hs : (Term.list ms).hasSort (.list .member) = true := hasSort_list.2 members
  cases shape with
  | classType =>
    refine ends_sorted (encodeTypeParameters_sorted _) fun typeParameters htp => ?_
    refine ends_sorted (encodeExtends_sorted _) fun superclass he => ?_
    refine ends_sorted (encodeImplements_sorted _) fun interfaces hi => ?_
    refine ends_sorted (encodeAnnotations_sorted _) fun notes hn => ends_bind fun doc ended => ?_
    have hd := encodeDoc_sorted docs t.doc doc ended
    have hp := atoms_sorted t.permitted
    exact Walk.ends_pure <| hasSort_compound (by decide) rfl
      (by simp [TermSort.allowsAtom, hm, htp, he, hi, hp, hs, hn, hd])
  | interface =>
    refine ends_sorted (encodeTypeParameters_sorted _) fun typeParameters htp => ?_
    refine ends_sorted (encodeImplements_sorted _) fun interfaces hi => ?_
    refine ends_sorted (encodeAnnotations_sorted _) fun notes hn => ends_bind fun doc ended => ?_
    have hd := encodeDoc_sorted docs t.doc doc ended
    have hp : (Term.list (t.permitted.map (declaredTerm · []))).hasSort (.list (.named "declared_type")) = true := by
      refine hasSort_list.2 fun u member => ?_
      obtain ⟨n, -, rfl⟩ := List.mem_map.1 member
      exact hasSort_compound (by decide) rfl rfl
    exact Walk.ends_pure <| hasSort_compound (by decide) rfl
      (by simp [TermSort.allowsAtom, hm, htp, hi, hp, hs, hn, hd])
  | enumeration =>
    refine ends_sorted (encodeImplements_sorted _) fun interfaces hi => ?_
    refine ends_sorted (encodeAnnotations_sorted _) fun notes hn => ends_bind fun doc ended => ?_
    have hd := encodeDoc_sorted docs t.doc doc ended
    exact Walk.ends_pure <| hasSort_compound (by decide) rfl (by simp [TermSort.allowsAtom, hm, hi, hs, hn, hd])
  | annotationType =>
    refine ends_sorted (encodeAnnotations_sorted _) fun notes hn => ends_bind fun doc ended => ?_
    have hd := encodeDoc_sorted docs t.doc doc ended
    exact Walk.ends_pure <| hasSort_compound (by decide) rfl (by simp [TermSort.allowsAtom, hm, hn, hd])
  | record =>
    refine ends_sorted (encodeTypeParameters_sorted _) fun typeParameters htp => ?_
    refine ends_sorted (encodeImplements_sorted _) fun interfaces hi => ?_
    refine ends_sorted (encodeComponents_sorted _) fun components hc => ?_
    refine ends_sorted (encodeAnnotations_sorted _) fun notes hn => ends_bind fun doc ended => ?_
    have hd := encodeDoc_sorted docs t.doc doc ended
    exact Walk.ends_pure <| hasSort_compound (by decide) rfl
      (by simp [TermSort.allowsAtom, hm, htp, hi, hc, hs, hn, hd])

/-! ## Modules and packages -/

/-- Whether the term is of the sort of the list that it goes to. -/
def DirectiveTerm.isSorted : DirectiveTerm → Bool
  | .requires t => t.hasSort (.named "requires")
  | .exports t => t.hasSort (.named "exports")
  | .uses t => t.hasSort .type
  | .provides t => t.hasSort (.named "provides")

theorem Directive.visit_sorted (moduleName : String) (d : Directive) :
    (d.visit moduleName).Ends fun t => ∀ u ∈ t, u.isSorted = true := by
  cases d with
  | requires m ms as =>
    rw [Directive.visit]
    split
    · exact Walk.ends_pure (by simp)
    · refine ends_sorted (encodeAnnotations_sorted as) fun notes hn => Walk.ends_pure fun u same => ?_
      cases same
      have hm := atoms_sorted (ms.map Text.lower)
      rw [DirectiveTerm.isSorted]
      exact hasSort_compound (by decide) rfl (by simp [TermSort.allowsAtom, hm, hn])
  | exports p ts as =>
    refine ends_sorted (encodeAnnotations_sorted as) fun notes hn => Walk.ends_pure fun u same => ?_
    cases same
    have ht := atoms_sorted ts
    rw [DirectiveTerm.isSorted]
    exact hasSort_compound (by decide) rfl (by simp [TermSort.allowsAtom, ht, hn])
  | uses t =>
    refine ends_sorted t.encode_sorted fun service hs => Walk.ends_pure fun u same => ?_
    cases same
    exact hs
  | provides t ts as =>
    refine ends_sorted t.encode_sorted fun service hs => ends_sorted (encodeTypes_sorted ts) fun types ht => ?_
    refine ends_sorted (encodeAnnotations_sorted as) fun notes hn => Walk.ends_pure fun u same => ?_
    cases same
    rw [DirectiveTerm.isSorted]
    exact hasSort_compound (by decide) rfl (by simp [hs, ht, hn])
  | stray f => exact ends_bind fun _ _ => Walk.ends_pure (by simp)

theorem Directive.visitList_sorted (moduleName : String) (ds : List Directive) :
    (Directive.visitList moduleName ds).Ends fun ts => ∀ t ∈ ts, t.isSorted = true := by
  induction ds with
  | nil => exact Walk.ends_pure (by simp)
  | cons d ds ih => exact Walk.ends_toList_append (Directive.visit_sorted moduleName d) ih

/-- The terms that go to one of the lists of a module's fact. -/
theorem DirectiveTerm.list_sorted {ts : List DirectiveTerm} (sorted : ∀ t ∈ ts, t.isSorted = true)
    {part : DirectiveTerm → Option Term} {s : TermSort}
    (told : ∀ (t : DirectiveTerm) (u : Term), part t = some u → t.isSorted = u.hasSort s) :
    (Term.list (ts.filterMap part)).hasSort (.list s) = true := by
  refine hasSort_list.2 fun u member => ?_
  obtain ⟨t, listed, same⟩ := List.mem_filterMap.1 member
  rw [← told t u same]
  exact sorted t listed

theorem Module.visit_sorted (m : Module) : m.visit.Ends fun f => f.hasSort (.named "module") = true := by
  rw [Module.visit]
  refine ends_bind fun ds ended => ends_bind fun _ _ => ends_bind fun _ _ => Walk.ends_pure ?_
  have sorted := Directive.visitList_sorted m.name m.directives ds ended
  have hm := encodeModifiers_sorted m.modifiers
  have hp := atoms_sorted m.packages
  have hr : (Term.list (ds.filterMap (·.requires?))).hasSort (.list (.named "requires")) = true :=
    DirectiveTerm.list_sorted sorted fun t u same => by cases t <;> cases same; rfl
  have he : (Term.list (ds.filterMap (·.exports?))).hasSort (.list (.named "exports")) = true :=
    DirectiveTerm.list_sorted sorted fun t u same => by cases t <;> cases same; rfl
  have hu : (Term.list (ds.filterMap (·.uses?))).hasSort (.list .type) = true :=
    DirectiveTerm.list_sorted sorted fun t u same => by cases t <;> cases same; rfl
  have hv : (Term.list (ds.filterMap (·.provides?))).hasSort (.list (.named "provides")) = true :=
    DirectiveTerm.list_sorted sorted fun t u same => by cases t <;> cases same; rfl
  exact hasSort_compound (by decide) rfl (by simp [TermSort.allowsAtom, hm, hp, hr, he, hu, hv])

theorem visitPackageMembers_sorted (docs : Bool) (package : String) (ds : List Declaration) :
    (visitPackageMembers docs package ds).Ends fun ms => ∀ t ∈ ms, t.hasSort (.named "type_declaration") = true := by
  induction ds with
  | nil => exact Walk.ends_pure (by simp)
  | cons d ds ih =>
    have first : (visitPackageMember docs package d).Ends fun m =>
        ∀ t ∈ m, t.hasSort (.named "type_declaration") = true := by
      cases d with
      | ofType t members =>
        rw [visitPackageMember_ofType]
        intro m ended u member
        rw [visitMember_ofType_ends docs package t members m ended u member]
        exact t.marker_sorted
      | ofExecutable e => exact ends_bind fun _ _ => Walk.ends_pure (by simp)
      | ofVariable v => exact ends_bind fun _ _ => Walk.ends_pure (by simp)
      | stray f => exact ends_bind fun _ _ => Walk.ends_pure (by simp)
    exact Walk.ends_toList_append first ih

theorem Package.visit_sorted (docs : Bool) (p : Package) :
    (p.visit docs).Ends fun f => f.hasSort (.named "package_declaration") = true := by
  rw [Package.visit]
  refine ends_bind fun ms ended => ends_bind fun _ _ => ends_bind fun _ _ => Walk.ends_pure ?_
  have members := hasSort_list.2 (visitPackageMembers_sorted docs p.name p.members ms ended)
  exact hasSort_compound (by decide) rfl (by simp [TermSort.allowsAtom, members])

/-! ## All facts of a program -/

/-- The sort of the facts that are written under a key. -/
def Key.sort : Key → TermSort
  | .module _ => .named "module"
  | .package _ => .named "package_declaration"
  | .type _ _ => .typeFact

theorem Subject.fact_sorted {docs : Bool} {s : Subject} {f : Term} (fact : s.HasFact docs f) :
    f.hasSort s.key.sort = true := by
  cases s with
  | module m => exact m.visit_sorted f fact
  | package p => exact p.visit_sorted docs f fact
  | type package t ds =>
    rcases TypeHead.visitWith_eq_ok fact with ⟨-, impossible⟩ | ⟨shape, ms, g, -, walked, built, same⟩
    · cases impossible
    · cases same
      exact t.fact_sorted docs package (visitMembers_sorted docs package ds ms walked) shape f built

theorem Index.moduleFact_sorted (i : Index) : i.moduleFact.hasSort (.named "module_index") = true :=
  hasSort_compound (by decide) rfl (by simp [atoms_sorted])

theorem Index.packageFact_sorted (i : Index) : i.packageFact.hasSort (.named "package_index") = true :=
  hasSort_compound (by decide) rfl (by simp [atoms_sorted])

/-- The facts of a program, each with the sort that it is to be of: those that the walk writes, by their keys, and
those of the index it ends with. -/
def Program.facts (docs : Bool) (p : Program) : List (TermSort × Term) :=
  (p.walk docs).writes.map (fun call => (call.1.sort, call.2)) ++
    match (p.walk docs).result with
    | .ok i => [(.named "module_index", i.moduleFact), (.named "package_index", i.packageFact)]
    | .error _ => []

theorem Program.facts_sorted (docs : Bool) (p : Program) : ∀ f ∈ p.facts docs, f.2.hasSort f.1 = true := by
  intro f member
  rcases List.mem_append.1 member with written | indexed
  · obtain ⟨call, listed, rfl⟩ := List.mem_map.1 written
    obtain ⟨done, -, -, wrote, -⟩ := Program.walk_answers docs p
    obtain ⟨s, key, fact⟩ : ∃ s : Subject, s.WrittenAs docs call := by
      obtain ⟨i, found⟩ := List.mem_iff_get.1 listed
      have bound : i.1 < done.length := by
        rw [wrote.length_eq]
        exact i.2
      exact ⟨done.get ⟨i.1, bound⟩, found ▸ wrote.get bound i.2⟩
    rw [key]
    exact Subject.fact_sorted fact
  · cases ended : (p.walk docs).result with
    | error e => simp [ended] at indexed
    | ok i =>
      simp only [ended, List.mem_cons, List.not_mem_nil, or_false] at indexed
      rcases indexed with rfl | rfl
      · exact i.moduleFact_sorted
      · exact i.packageFact_sorted

/-- **Facts follow the signature**, which gives each name one list of argument sorts. Every fact of a program is of its
sort, and every compound in it, at any depth, has a name of the signature, which is an identifier, with as many
arguments as that says and of these sorts. -/
theorem Program.facts_follow_signature (docs : Bool) (p : Program) :
    (signature.map Prod.fst).Nodup ∧
    ∀ f ∈ p.facts docs, f.2.hasSort f.1 = true ∧
      ∀ (n : String) (ts : List Term), Term.Occurs (.compound n ts) f.2 →
        ∃ ss, signature.lookup n = some ss ∧ ts.length = ss.length ∧ Term.haveSorts ss ts = true ∧
          Atom.isIdentifier n.toList = true := by
  refine ⟨by decide, fun f member => ?_⟩
  have sorted := Program.facts_sorted docs p f member
  exact ⟨sorted, fun n ts within => Term.signed_of_occurs sorted within⟩

/-- A class with a field of an array type, which is annotated with a list that has an annotation in it. -/
def Program.annotatedSample : Program :=
  { packages := [{
      name := "p"
      members := [
        .ofType { kind := "CLASS", name := "A" }
          [.ofVariable
            { kind := "FIELD", name := "x", type := .array (.declared "T" [])
              annotations := [{ name := "N", arguments := [("v", .list [.nested "M" []])] }] }]] }] }

/-- The fact of the field. -/
def Program.annotatedField : Term :=
  .compound "field"
    [.atom "x", .list [], .compound "type" [.atom "array", .compound "declared_type" [.atom "T", .list []]],
      .list [.compound "annotation" [.atom "N",
        .list [.compound "annotation_argument" [.atom "v",
          .list [.compound "annotation" [.atom "M", .list []]]]]]],
      .atom ""]

theorem Program.facts_follow_signature_annotated :
    ∃ f ∈ Program.annotatedSample.facts false, Term.Occurs Program.annotatedField f.2 ∧
      f.2.hasSort .typeFact = true ∧
      ∃ ss, signature.lookup "field" = some ss ∧ Program.annotatedField.parts.length = ss.length := by
  let f : TermSort × Term :=
    (.typeFact, .compound "class"
      [.atom "A", .atom "p", .list [], .list [], .atom "null", .list [], .list [],
        .list [Program.annotatedField], .list [], .atom ""])
  have written : f ∈ Program.annotatedSample.facts false := List.mem_of_getElem? (i := 0) rfl
  have listed : Term.Occurs Program.annotatedField (.list [Program.annotatedField]) :=
    .inside (List.mem_singleton.2 rfl) .here
  have within : Term.Occurs Program.annotatedField f.2 := .inside (by simp [f, Term.parts]) listed
  obtain ⟨sorted, compounds⟩ := (Program.facts_follow_signature false Program.annotatedSample).2 f written
  obtain ⟨ss, signed, arity, -⟩ := compounds "field" Program.annotatedField.parts within
  exact ⟨f, written, within, sorted, ss, signed, arity⟩

end ProgramFacts
