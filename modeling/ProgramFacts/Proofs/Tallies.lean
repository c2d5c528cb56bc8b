import Mathlib.Algebra.BigOperators.Group.List.Basic
import Mathlib.Algebra.GroupWithZero.Nat
import ProgramFacts.Proofs.WriteOrder

/-!
# What walks count

Two questions about the counts of a walk. Whether they are in step with what it does (`Balanced`): as many modules,
packages and types are counted as facts of them are written, and as many things left out as warnings say so. This holds
of every walk, wherever it ends. And what they come to if the walk comes to its end (`Tallies`), which is told from the
model alone.
-/

namespace ProgramFacts

attribute [ext] Tally

namespace Tally

instance : Zero Tally := ⟨{}⟩

theorem mk_add_mk (m p t e c f s m' p' t' e' c' f' s' : Nat) :
    (⟨m, p, t, e, c, f, s⟩ + ⟨m', p', t', e', c', f', s'⟩ : Tally) =
      ⟨m + m', p + p', t + t', e + e', c + c', f + f', s + s'⟩ := rfl

instance : AddCommMonoid Tally where
  add_assoc a b c := by ext <;> exact Nat.add_assoc _ _ _
  zero_add a := by ext <;> exact Nat.zero_add _
  add_zero a := rfl
  add_comm a b := by ext <;> exact Nat.add_comm _ _
  nsmul := nsmulRec

end Tally

namespace Key

def isModule : Key → Bool
  | .module _ => true
  | _ => false

def isPackage : Key → Bool
  | .package _ => true
  | _ => false

def isType : Key → Bool
  | .type _ _ => true
  | _ => false

end Key

/-! ## Placeholders

Encodings put placeholders where they know no shape, but leave nothing out.
-/

namespace Noted

variable {α β : Type}

/-- Whether no warning says that something was left out. -/
def LeavesNothingOut (n : Noted α) : Prop := ∀ w ∈ n.warnings, w.isSkip = false

theorem leavesNothingOut_pure (a : α) : (pure a : Noted α).LeavesNothingOut := by
  intro w member
  exact absurd member List.not_mem_nil

theorem leavesNothingOut_warn {w : Warning} (kept : w.isSkip = false) (a : α) : (warn w a).LeavesNothingOut := by
  intro w' member
  rwa [List.mem_singleton.1 member]

theorem leavesNothingOut_result (r : Except EncodeFault α) : (ofResult r).LeavesNothingOut := by
  intro w member
  exact absurd member List.not_mem_nil

theorem LeavesNothingOut.bind {x : Noted α} {f : α → Noted β} (first : x.LeavesNothingOut)
    (next : ∀ a, (f a).LeavesNothingOut) : (x >>= f).LeavesNothingOut := by
  intro w member
  cases h : x.result with
  | ok a =>
    rw [bind_eq_of_ok h] at member
    rcases List.mem_append.1 member with here | there
    · exact first w here
    · exact next a w there
  | error e =>
    rw [bind_eq_of_error h] at member
    exact first w member

theorem LeavesNothingOut.map {x : Noted α} {f : α → β} (first : x.LeavesNothingOut) :
    (x >>= fun a => pure (f a)).LeavesNothingOut :=
  first.bind fun a => leavesNothingOut_pure (f a)

theorem leavesNothingOut_each {f : α → Noted β} (one : ∀ a, (f a).LeavesNothingOut) (as : List α) :
    (each f as).LeavesNothingOut := by
  induction as with
  | nil => exact leavesNothingOut_pure []
  | cons a as ih => exact (one a).bind fun _ => ih.map

end Noted

open Noted (leavesNothingOut_pure leavesNothingOut_warn leavesNothingOut_result leavesNothingOut_each)

mutual

theorem TypeExpr.encode_leavesNothingOut : ∀ t : TypeExpr, t.encode.LeavesNothingOut
  | .declared _ ts => by
    rw [TypeExpr.encode]
    exact (TypeExpr.encodeList_leavesNothingOut ts).map
  | .array t | .wildcard (some t) _ | .wildcard none (some t) => by
    rw [TypeExpr.encode]
    exact t.encode_leavesNothingOut.map
  | .primitive _ | .typeVariable _ | .wildcard none none | .noType _ => by
    rw [TypeExpr.encode]
    exact leavesNothingOut_pure _
  | .other _ _ => by
    rw [TypeExpr.encode]
    exact leavesNothingOut_warn rfl _
  | .stray _ => by
    rw [TypeExpr.encode]
    exact (leavesNothingOut_result _).bind fun _ => leavesNothingOut_warn rfl _

theorem TypeExpr.encodeList_leavesNothingOut :
    ∀ ts : List TypeExpr, (TypeExpr.encodeList ts).LeavesNothingOut
  | [] => by
    rw [TypeExpr.encodeList]
    exact leavesNothingOut_pure _
  | t :: ts => by
    rw [TypeExpr.encodeList]
    exact t.encode_leavesNothingOut.bind fun _ => (TypeExpr.encodeList_leavesNothingOut ts).map

end

mutual

theorem Value.encode_leavesNothingOut : ∀ v : Value, v.encode.LeavesNothingOut
  | .bool _ | .number _ | .text _ | .char _ | .enumConstant _ _ => by
    rw [Value.encode]
    exact leavesNothingOut_pure _
  | .integer n => by
    rw [Value.encode]
    split
    · exact leavesNothingOut_pure _
    · intro w member
      exact absurd member List.not_mem_nil
  | .nested _ vs => by
    rw [Value.encode]
    exact (Value.encodeArguments_leavesNothingOut vs).map
  | .list vs => by
    rw [Value.encode]
    exact (Value.encodeList_leavesNothingOut vs).map
  | .type t => by
    rw [Value.encode]
    exact t.encode_leavesNothingOut
  | .other _ _ => by
    rw [Value.encode]
    exact leavesNothingOut_warn rfl _
  | .stray _ => by
    rw [Value.encode]
    exact (leavesNothingOut_result _).bind fun _ => leavesNothingOut_warn rfl _

theorem Value.encodeList_leavesNothingOut : ∀ vs : List Value, (Value.encodeList vs).LeavesNothingOut
  | [] => by
    rw [Value.encodeList]
    exact leavesNothingOut_pure _
  | v :: vs => by
    rw [Value.encodeList]
    exact v.encode_leavesNothingOut.bind fun _ => (Value.encodeList_leavesNothingOut vs).map

theorem Value.encodeArguments_leavesNothingOut :
    ∀ vs : List (String × Value), (Value.encodeArguments vs).LeavesNothingOut
  | [] => by
    rw [Value.encodeArguments]
    exact leavesNothingOut_pure _
  | (_, v) :: vs => by
    rw [Value.encodeArguments]
    exact v.encode_leavesNothingOut.bind fun _ => (Value.encodeArguments_leavesNothingOut vs).map

end

theorem encodeAnnotations_leavesNothingOut (as : List Annotation) : (encodeAnnotations as).LeavesNothingOut := by
  refine (leavesNothingOut_each (fun a => ?_) as).map
  exact (Value.encodeArguments_leavesNothingOut a.arguments).map

theorem encodeTypes_leavesNothingOut (ts : List TypeExpr) : (encodeTypes ts).LeavesNothingOut :=
  (TypeExpr.encodeList_leavesNothingOut ts).map

theorem encodeTypeParameters_leavesNothingOut (ps : List TypeParameter) :
    (encodeTypeParameters ps).LeavesNothingOut := by
  refine (leavesNothingOut_each (fun p => ?_) ps).map
  exact (encodeTypes_leavesNothingOut p.bounds).bind fun _ => (encodeAnnotations_leavesNothingOut p.annotations).map

theorem encodeParameters_leavesNothingOut (ps : List Parameter) : (encodeParameters ps).LeavesNothingOut := by
  refine (leavesNothingOut_each (fun p => ?_) ps).map
  exact p.type.encode_leavesNothingOut.bind fun _ => (encodeAnnotations_leavesNothingOut p.annotations).map

theorem encodeComponents_leavesNothingOut (cs : List RecordComponent) : (encodeComponents cs).LeavesNothingOut := by
  refine (leavesNothingOut_each (fun c => ?_) cs).map
  exact c.type.encode_leavesNothingOut.bind fun _ => (encodeAnnotations_leavesNothingOut c.annotations).map

theorem encodeThrows_leavesNothingOut (ts : List TypeExpr) : (encodeThrows ts).LeavesNothingOut :=
  (leavesNothingOut_each (fun t => t.encode_leavesNothingOut.map) ts).map

theorem encodeImplements_leavesNothingOut (ts : List TypeExpr) : (encodeImplements ts).LeavesNothingOut :=
  (leavesNothingOut_each (fun t => t.encode_leavesNothingOut.map) ts).map

theorem encodeExtends_leavesNothingOut (t? : Option TypeExpr) : (encodeExtends t?).LeavesNothingOut := by
  cases t? with
  | none => exact leavesNothingOut_pure _
  | some t =>
    rw [encodeExtends]
    split
    · exact leavesNothingOut_pure _
    · exact t.encode_leavesNothingOut.map

/-! ## Counts in step -/

namespace Walk

variable {α β : Type}

theorem warnings_bind_of_ok {x : Walk α} {a : α} (h : x.result = .ok a) (f : α → Walk β) :
    (x >>= f).warnings = x.warnings ++ (f a).warnings := by
  rw [bind_of_ok h]
  exact List.filterMap_append

theorem warnings_bind_of_error {x : Walk α} {e : EncodeFault} (h : x.result = .error e) (f : α → Walk β) :
    (x >>= f).warnings = x.warnings := by
  rw [bind_of_error h]
  rfl

@[simp] theorem warnings_ofNoted (n : Noted α) : (ofNoted n).warnings = n.warnings := by
  simp [warnings, ofNoted, List.filterMap_map]

/-- The counts are those of the writes and of the warnings that say what was left out. -/
structure Balanced (w : Walk α) : Prop where
  modules : w.writes.countP (·.1.isModule) = w.tally.modules
  packages : w.writes.countP (·.1.isPackage) = w.tally.packages
  types : w.writes.countP (·.1.isType) = w.tally.types
  skipped : w.warnings.countP Warning.isSkip = w.tally.skipped

theorem balanced_pure (a : α) : (pure a : Walk α).Balanced := ⟨rfl, rfl, rfl, rfl⟩

theorem balanced_skip {w : Warning} (skips : w.isSkip = true) : (skip w).Balanced :=
  ⟨rfl, rfl, rfl, List.countP_singleton.trans (if_pos skips)⟩

theorem balanced_ofNoted {n : Noted α} (nothing : n.LeavesNothingOut) : (ofNoted n).Balanced := by
  refine ⟨?_, ?_, ?_, ?_⟩
  · rw [writes_ofNoted]; rfl
  · rw [writes_ofNoted]; rfl
  · rw [writes_ofNoted]; rfl
  · rw [warnings_ofNoted]
    refine List.countP_eq_zero.2 fun w member => ?_
    rw [nothing w member]
    exact Bool.false_ne_true

theorem Balanced.bind {x : Walk α} {f : α → Walk β} (first : x.Balanced) (next : ∀ a, (f a).Balanced) :
    (x >>= f).Balanced := by
  cases h : x.result with
  | error e =>
    have writes := writes_bind_of_error h f
    have warnings := warnings_bind_of_error h f
    have tally : (x >>= f).tally = x.tally := by rw [bind_of_error h]
    constructor
    · rw [writes, tally, first.modules]
    · rw [writes, tally, first.packages]
    · rw [writes, tally, first.types]
    · rw [warnings, tally, first.skipped]
  | ok a =>
    have writes := writes_bind_of_ok h f
    have warnings := warnings_bind_of_ok h f
    have tally : (x >>= f).tally = x.tally + (f a).tally := by rw [bind_of_ok h]
    constructor
    · rw [writes, tally, List.countP_append, first.modules, (next a).modules]; rfl
    · rw [writes, tally, List.countP_append, first.packages, (next a).packages]; rfl
    · rw [writes, tally, List.countP_append, first.types, (next a).types]; rfl
    · rw [warnings, tally, List.countP_append, first.skipped, (next a).skipped]; rfl

/-- Encoding a part before the rest of a walk. -/
theorem balanced_noted {n : Noted α} {f : α → Walk β} (nothing : n.LeavesNothingOut) (next : ∀ a, (f a).Balanced) :
    (ofNoted n >>= f).Balanced :=
  (balanced_ofNoted nothing).bind next

/-- A text may be missing, but making it neither writes nor warns nor counts. -/
theorem balanced_result {r : Except EncodeFault α} {f : α → Walk β} (next : ∀ a, (f a).Balanced) :
    (ofResult r >>= f).Balanced :=
  Balanced.bind ⟨rfl, rfl, rfl, rfl⟩ next

end Walk

open Walk (balanced_pure balanced_skip balanced_noted balanced_result)

theorem Executable.visit_balanced (docs : Bool) (e : Executable) : (e.visit docs).Balanced := by
  rw [Executable.visit]
  split
  · refine balanced_noted (encodeTypeParameters_leavesNothingOut _) fun _ => ?_
    refine balanced_noted (TypeExpr.encode_leavesNothingOut _) fun _ => ?_
    refine balanced_noted (encodeParameters_leavesNothingOut _) fun _ => ?_
    refine balanced_noted (encodeThrows_leavesNothingOut _) fun _ => ?_
    refine balanced_noted (encodeAnnotations_leavesNothingOut _) fun _ => balanced_result fun _ => ?_
    exact ⟨rfl, rfl, rfl, rfl⟩
  · split
    · refine balanced_noted (encodeTypeParameters_leavesNothingOut _) fun _ => ?_
      refine balanced_noted (encodeParameters_leavesNothingOut _) fun _ => ?_
      refine balanced_noted (encodeThrows_leavesNothingOut _) fun _ => ?_
      refine balanced_noted (encodeAnnotations_leavesNothingOut _) fun _ => balanced_result fun _ => ?_
      exact ⟨rfl, rfl, rfl, rfl⟩
    · exact (balanced_skip rfl).bind fun _ => balanced_pure none

theorem Variable.visit_balanced (docs : Bool) (v : Variable) : (v.visit docs).Balanced := by
  rw [Variable.visit]
  split
  · exact balanced_pure none
  · split
    · refine balanced_noted (TypeExpr.encode_leavesNothingOut _) fun _ => ?_
      refine balanced_noted (encodeAnnotations_leavesNothingOut _) fun _ => balanced_result fun _ => ?_
      exact ⟨rfl, rfl, rfl, rfl⟩
    · exact (balanced_skip rfl).bind fun _ => balanced_pure none

theorem TypeHead.fact_balanced (docs : Bool) (package : String) (t : TypeHead) (ms : List Term) (shape : TypeShape) :
    (t.fact docs package ms shape).Balanced := by
  have notes := encodeAnnotations_leavesNothingOut t.annotations
  have typeParameters := encodeTypeParameters_leavesNothingOut t.typeParameters
  have interfaces := encodeImplements_leavesNothingOut t.interfaces
  -- annotations and documentation come last in every shape
  have last : ∀ build : Term → Term → Term,
      (Walk.ofNoted (encodeAnnotations t.annotations) >>= fun notes =>
        Walk.ofResult (encodeDoc docs t.doc) >>= fun doc => (pure (build notes doc) : Walk Term)).Balanced := by
    intro build
    exact balanced_noted notes fun _ => balanced_result fun _ => balanced_pure _
  cases shape with
  | classType =>
    refine balanced_noted typeParameters fun _ => ?_
    exact balanced_noted (encodeExtends_leavesNothingOut _) fun _ => balanced_noted interfaces fun _ => last _
  | interface => exact balanced_noted typeParameters fun _ => balanced_noted interfaces fun _ => last _
  | enumeration => exact balanced_noted interfaces fun _ => last _
  | annotationType => exact last _
  | record =>
    refine balanced_noted typeParameters fun _ => balanced_noted interfaces fun _ => ?_
    exact balanced_noted (encodeComponents_leavesNothingOut _) fun _ => last _

/-- A type is written and counted once its members are. -/
theorem TypeHead.visitWith_balanced (docs : Bool) (package : String) (t : TypeHead) {members : Walk (List Term)}
    (inside : members.Balanced) : (t.visitWith docs package members).Balanced := by
  rw [TypeHead.visitWith]
  cases TypeShape.ofKind? t.kind with
  | none => exact (balanced_skip rfl).bind fun _ => balanced_pure none
  | some shape =>
    refine inside.bind fun ms => (t.fact_balanced docs package ms shape).bind fun f => ?_
    exact ⟨rfl, rfl, rfl, rfl⟩

mutual

theorem visitMember_balanced (docs : Bool) (package : String) :
    ∀ d : Declaration, (visitMember docs package d).Balanced
  | .ofType t ds => by
    rw [visitMember]
    exact (t.visitWith_balanced docs package (visitMembers_balanced docs package ds)).bind fun _ => balanced_pure _
  | .ofExecutable e => by
    rw [visitMember]
    exact e.visit_balanced docs
  | .ofVariable v => by
    rw [visitMember]
    exact v.visit_balanced docs
  | .stray f => by
    rw [visitMember]
    exact balanced_result fun _ => (balanced_skip rfl).bind fun _ => balanced_pure none

theorem visitMembers_balanced (docs : Bool) (package : String) :
    ∀ ds : List Declaration, (visitMembers docs package ds).Balanced
  | [] => by
    rw [visitMembers]
    exact balanced_pure []
  | d :: ds => by
    rw [visitMembers]
    refine (visitMember_balanced docs package d).bind fun _ => ?_
    exact (visitMembers_balanced docs package ds).bind fun _ => balanced_pure _

end

theorem Directive.visit_balanced (moduleName : String) (d : Directive) : (d.visit moduleName).Balanced := by
  cases d with
  | requires m ms as =>
    rw [Directive.visit]
    split
    · exact balanced_pure none
    · exact balanced_noted (encodeAnnotations_leavesNothingOut as) fun _ => balanced_pure _
  | exports p ts as => exact balanced_noted (encodeAnnotations_leavesNothingOut as) fun _ => balanced_pure _
  | uses t => exact balanced_noted t.encode_leavesNothingOut fun _ => balanced_pure _
  | provides t ts as =>
    refine balanced_noted t.encode_leavesNothingOut fun _ => ?_
    refine balanced_noted (encodeTypes_leavesNothingOut ts) fun _ => ?_
    exact balanced_noted (encodeAnnotations_leavesNothingOut as) fun _ => balanced_pure _
  | stray f => exact balanced_result fun _ => (balanced_skip rfl).bind fun _ => balanced_pure none

theorem Directive.visitList_balanced (moduleName : String) (ds : List Directive) :
    (Directive.visitList moduleName ds).Balanced := by
  induction ds with
  | nil => exact balanced_pure []
  | cons d ds ih => exact (Directive.visit_balanced moduleName d).bind fun _ => ih.bind fun _ => balanced_pure _

theorem visitPackageMembers_balanced (docs : Bool) (package : String) (ds : List Declaration) :
    (visitPackageMembers docs package ds).Balanced := by
  induction ds with
  | nil => exact balanced_pure []
  | cons d ds ih =>
    have first : (visitPackageMember docs package d).Balanced := by
      cases d with
      | ofType t members =>
        rw [visitPackageMember_ofType]
        exact visitMember_balanced docs package (.ofType t members)
      | ofExecutable e => exact (balanced_skip rfl).bind fun _ => balanced_pure none
      | ofVariable v => exact (balanced_skip rfl).bind fun _ => balanced_pure none
      | stray f => exact balanced_result fun _ => (balanced_skip rfl).bind fun _ => balanced_pure none
    exact first.bind fun _ => ih.bind fun _ => balanced_pure _

theorem Scope.visit_balanced (docs : Bool) (s : Scope) : (s.visit docs).Balanced := by
  cases s with
  | module m =>
    refine (Directive.visitList_balanced m.name m.directives).bind fun ds => ?_
    exact ⟨rfl, rfl, rfl, rfl⟩
  | package p =>
    refine (visitPackageMembers_balanced docs p.name p.members).bind fun ms => ?_
    exact ⟨rfl, rfl, rfl, rfl⟩

/-- The counts of a walk are in step with what it does, wherever it ends. -/
theorem Program.walk_balanced (docs : Bool) (p : Program) : (p.walk docs).Balanced := by
  have scopes : ∀ (ss : List Scope) (i : Index), (walkScopes docs i ss).Balanced := by
    intro ss
    induction ss with
    | nil => exact fun i => balanced_pure i
    | cons s ss ih => exact fun i => (s.visit_balanced docs).bind fun _ => ih (i.enter s)
  exact scopes p.scopes {}

/-! ## Counts of walks that come to their end -/

namespace Walk

variable {α β : Type}

/-- What has been counted, if the walk comes to its end. -/
def Tallies (t : Tally) (w : Walk α) : Prop := w.isOk = true → w.tally = t

theorem tallies_pure (a : α) : (pure a : Walk α).Tallies 0 := fun _ => rfl

theorem tallies_count (t : Tally) : (count t).Tallies t := fun _ => rfl

theorem Tallies.bind {x : Walk α} {f : α → Walk β} {s t : Tally} (first : x.Tallies s)
    (next : ∀ a, (f a).Tallies t) : (x >>= f).Tallies (s + t) := by
  intro ok
  cases h : x.result with
  | error e =>
    rw [bind_of_error h] at ok
    exact Bool.noConfusion ok
  | ok a =>
    have counted := first (isOk_iff.2 ⟨a, h⟩)
    rw [bind_of_ok h] at ok ⊢
    change x.tally + (f a).tally = s + t
    rw [counted, next a ok]

/-- A part that counts nothing comes first. -/
theorem Tallies.after {x : Walk α} {f : α → Walk β} {t : Tally} (first : x.Tallies 0)
    (next : ∀ a, (f a).Tallies t) : (x >>= f).Tallies t := by
  have both := first.bind next
  rwa [zero_add] at both

/-- A part that counts nothing follows. -/
theorem Tallies.before {x : Walk α} {f : α → Walk β} {t : Tally} (first : x.Tallies t)
    (next : ∀ a, (f a).Tallies 0) : (x >>= f).Tallies t := by
  have both := first.bind next
  rwa [add_zero] at both

theorem tallies_noted {n : Noted α} {f : α → Walk β} {t : Tally} (next : ∀ a, (f a).Tallies t) :
    (ofNoted n >>= f).Tallies t :=
  Tallies.after (fun _ => rfl) next

theorem tallies_result {r : Except EncodeFault α} {f : α → Walk β} {t : Tally} (next : ∀ a, (f a).Tallies t) :
    (ofResult r >>= f).Tallies t :=
  Tallies.after (fun _ => rfl) next

end Walk

end ProgramFacts
