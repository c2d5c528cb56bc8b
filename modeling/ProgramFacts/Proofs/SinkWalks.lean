import ProgramFacts.Facts.Sink

/-!
# Walks against a sink follow what is walked without one

What a walk hands to a sink does not depend on what the sink makes of it. So a walk against any sink, which hands over
each fact as it is finished and stops where one is refused, does what passing on the events of the walk does, one by one
and up to the first that is refused.
-/

namespace ProgramFacts

namespace Sink

variable {σ ε α β : Type} (k : Sink σ ε)

/-! ## Passing on -/

/-- Events are taken after others only if none of those was refused. -/
theorem accept_append (es later : List Event) (s : σ) :
    k.accept (es ++ later) s =
      match k.accept es s with
      | (s, .ok ()) => k.accept later s
      | (s, .error f) => (s, .error f) := by
  induction es generalizing s with
  | nil => rfl
  | cons e es ih =>
    cases e with
    | warning w => exact ih (k.warn w s)
    | write key fact =>
      rw [List.cons_append, accept, accept]
      rcases k.write key fact s with ⟨s, f | ⟨⟩⟩
      · rfl
      · exact ih s

theorem feed_pure (a : α) : k.feed (pure a) = pure a := rfl

/-- Passing on goes step by step. -/
theorem feed_bind (x : Walk α) (f : α → Walk β) : k.feed (x >>= f) = k.feed x >>= fun a => k.feed (f a) := by
  funext s
  obtain ⟨events, tally, result⟩ := x
  cases result with
  | error e =>
    change k.feed ⟨events, tally, .error e⟩ s = (k.feed ⟨events, tally, .error e⟩ >>= fun a => k.feed (f a)) s
    simp only [bind, feed]
    rcases k.accept events s with ⟨s, f | ⟨⟩⟩ <;> rfl
  | ok a =>
    change k.feed ⟨events ++ (f a).events, tally + (f a).tally, (f a).result⟩ s = _
    simp only [bind, feed, accept_append]
    rcases k.accept events s with ⟨s, refused | ⟨⟩⟩
    · rfl
    · dsimp only
      rcases k.accept (f a).events s with ⟨s, refused | ⟨⟩⟩
      · rfl
      · cases (f a).result <;> rfl

theorem feed_write (key : Key) (fact : Term) : k.feed (Walk.write key fact) = k.put key fact := by
  funext s
  simp only [feed, Walk.write, accept, put]
  rcases k.write key fact s with ⟨s, f | ⟨⟩⟩ <;> rfl

/-! ## Declarations -/

theorem visitWith_feed (docs : Bool) (package : String) (t : TypeHead) (members : Walk (List Term)) :
    k.visitWith docs package t (k.feed members) = k.feed (t.visitWith docs package members) := by
  rw [visitWith, TypeHead.visitWith]
  cases TypeShape.ofKind? t.kind with
  | none => simp only [feed_bind, feed_pure]
  | some shape => simp only [feed_bind, feed_write, feed_pure]

mutual

theorem visitMember_eq_feed (docs : Bool) (package : String) (d : Declaration) :
    k.visitMember docs package d = k.feed (ProgramFacts.visitMember docs package d) := by
  cases d with
  | ofType t ds =>
    rw [visitMember, ProgramFacts.visitMember, visitMembers_eq_feed docs package ds, visitWith_feed, feed_bind]
    rfl
  | ofExecutable e => rw [visitMember, ProgramFacts.visitMember]
  | ofVariable v => rw [visitMember, ProgramFacts.visitMember]
  | stray f =>
    rw [visitMember, ProgramFacts.visitMember]
    simp only [feed_bind, feed_pure]

theorem visitMembers_eq_feed (docs : Bool) (package : String) (ds : List Declaration) :
    k.visitMembers docs package ds = k.feed (ProgramFacts.visitMembers docs package ds) := by
  cases ds with
  | nil => rfl
  | cons d ds =>
    rw [visitMembers, ProgramFacts.visitMembers, visitMember_eq_feed docs package d,
      visitMembers_eq_feed docs package ds]
    simp only [feed_bind, feed_pure]

end

/-! ## Scopes -/

theorem visitModule_eq_feed (m : Module) : k.visitModule m = k.feed m.visit := by
  rw [visitModule, Module.visit]
  simp only [feed_bind, feed_write, feed_pure]

theorem visitPackageMember_eq_feed (docs : Bool) (package : String) (d : Declaration) :
    k.visitPackageMember docs package d = k.feed (ProgramFacts.visitPackageMember docs package d) := by
  cases d with
  | ofType t ds =>
    rw [visitPackageMember, ProgramFacts.visitPackageMember, visitMembers_eq_feed, visitWith_feed, visitType, feed_bind]
    rfl
  | ofExecutable | ofVariable | stray =>
    simp only [visitPackageMember, ProgramFacts.visitPackageMember, feed_bind, feed_pure]

theorem visitPackageMembers_eq_feed (docs : Bool) (package : String) (ds : List Declaration) :
    k.visitPackageMembers docs package ds = k.feed (ProgramFacts.visitPackageMembers docs package ds) := by
  induction ds with
  | nil => rfl
  | cons d ds ih =>
    rw [visitPackageMembers, ProgramFacts.visitPackageMembers, visitPackageMember_eq_feed, ih]
    simp only [feed_bind, feed_pure]

theorem visitPackage_eq_feed (docs : Bool) (p : Package) : k.visitPackage docs p = k.feed (p.visit docs) := by
  rw [visitPackage, Package.visit, visitPackageMembers_eq_feed]
  simp only [feed_bind, feed_write, feed_pure]

theorem walkScopes_eq_feed (docs : Bool) (i : Index) (ss : List Scope) :
    k.walkScopes docs i ss = k.feed (ProgramFacts.walkScopes docs i ss) := by
  induction ss generalizing i with
  | nil => rfl
  | cons s ss ih =>
    have first : k.visitScope docs s = k.feed (s.visit docs) := by
      cases s with
      | module m => exact k.visitModule_eq_feed m
      | package p => exact k.visitPackage_eq_feed docs p
    rw [walkScopes, ProgramFacts.walkScopes, first, feed_bind]
    simp only [ih]

/-- **Walks against any sink.** A walk that hands over each fact as it is finished, and stops at the first that is
refused, does to the sink what the events of the walk do one by one, up to the first fact that is refused. If none is,
it comes to the result and the counts of the walk, or to its fault. -/
theorem walk_eq_feed (docs : Bool) (p : Program) : k.walk docs p = k.feed (p.walk docs) :=
  k.walkScopes_eq_feed docs {} p.scopes

end Sink

end ProgramFacts
