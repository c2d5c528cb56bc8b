import ProgramFacts.Facts.Scope

/-!
# Walks against a sink

The facts of a program go one by one to a sink. It may refuse a fact, and then the walk that has come to it goes no
further. What writes nothing is walked as it is, and its warnings are passed on.
-/

namespace ProgramFacts

/-- Takes warnings and facts in some state. -/
structure Sink (σ ε : Type) where
  warn : Warning → σ → σ
  /-- Takes a fact or refuses it. -/
  write : Key → Term → σ → σ × Except ε Unit

/-- Why a walk against a sink came to no end. -/
inductive FeedFault (ε : Type)
  /-- A part has no term. -/
  | encode (f : EncodeFault)
  /-- A fact was refused. -/
  | refused (f : ε)

/-- What a walk does to a sink: it leaves a state, and comes to a result and its counts or to a fault. -/
def Feed (σ ε α : Type) := σ → σ × Except (FeedFault ε) (α × Tally)

instance {σ ε : Type} : Monad (Feed σ ε) where
  pure a := fun s => (s, .ok (a, {}))
  bind x f := fun s =>
    match x s with
    | (s, .error e) => (s, .error e)
    | (s, .ok (a, n)) =>
      match f a s with
      | (s, .error e) => (s, .error e)
      | (s, .ok (b, m)) => (s, .ok (b, n + m))

namespace Sink

variable {σ ε : Type} (k : Sink σ ε)

/-- Takes events in order, up to the first fact that is refused. -/
def accept : List Event → σ → σ × Except ε Unit
  | [], s => (s, .ok ())
  | .warning w :: es, s => accept es (k.warn w s)
  | .write key fact :: es, s =>
    match k.write key fact s with
    | (s, .ok ()) => accept es s
    | (s, .error f) => (s, .error f)

/-- Passes on what has been walked. -/
def feed {α : Type} (w : Walk α) : Feed σ ε α := fun s =>
  match k.accept w.events s with
  | (s, .ok ()) =>
    match w.result with
    | .ok a => (s, .ok (a, w.tally))
    | .error f => (s, .error (.encode f))
  | (s, .error f) => (s, .error (.refused f))

/-- Hands over a finished fact. -/
def put (key : Key) (fact : Term) : Feed σ ε Unit := fun s =>
  match k.write key fact s with
  | (s, .ok ()) => (s, .ok ((), {}))
  | (s, .error f) => (s, .error (.refused f))

/-- Hands over the fact of a type after the facts in it. -/
def visitWith (docs : Bool) (package : String) (t : TypeHead) (members : Feed σ ε (List Term)) :
    Feed σ ε (Option Term) :=
  match TypeShape.ofKind? t.kind with
  | none => do
    k.feed (.skip (.typeKind t.kind (qualify package t.name)))
    pure none
  | some shape => do
    let ms ← members
    let f ← k.feed (t.fact docs package ms shape)
    k.put (.type package t.name) f
    k.feed (.count { types := 1 })
    pure (some f)

mutual

def visitMember (docs : Bool) (package : String) : Declaration → Feed σ ε (Option Term)
  | .ofType t ds => do
    let f ← k.visitWith docs package t (visitMembers docs package ds)
    pure (f.map fun _ => t.marker)
  | .ofExecutable e => k.feed (e.visit docs)
  | .ofVariable v => k.feed (v.visit docs)
  | .stray f => do
    let shown ← k.feed (.ofResult (textOrOversized f.shown?))
    k.feed (.skip (.member shown))
    pure none

def visitMembers (docs : Bool) (package : String) : List Declaration → Feed σ ε (List Term)
  | [] => pure []
  | d :: ds => do
    let m ← visitMember docs package d
    let ms ← visitMembers docs package ds
    pure (m.toList ++ ms)

end

def visitModule (m : Module) : Feed σ ε Term := do
  let ds ← k.feed (Directive.visitList m.name m.directives)
  let f := m.fact ds
  k.put (.module m.name) f
  k.feed (.count { modules := 1 })
  pure f

def visitPackageMember (docs : Bool) (package : String) : Declaration → Feed σ ε (Option Term)
  | .ofType t ds => do
    let f ← k.visitWith docs package t (k.visitMembers docs package ds)
    pure (f.map fun _ => t.marker)
  | d => do
    let shown ← k.feed (.ofResult (textOrOversized d.kindShown?))
    k.feed (.skip (.packageMember shown package))
    pure none

def visitPackageMembers (docs : Bool) (package : String) : List Declaration → Feed σ ε (List Term)
  | [] => pure []
  | d :: ds => do
    let m ← k.visitPackageMember docs package d
    let ms ← visitPackageMembers docs package ds
    pure (m.toList ++ ms)

def visitPackage (docs : Bool) (p : Package) : Feed σ ε Term := do
  let members ← k.visitPackageMembers docs p.name p.members
  let f := p.fact members
  k.put (.package p.name) f
  k.feed (.count { packages := 1 })
  pure f

def visitScope (docs : Bool) : Scope → Feed σ ε Term
  | .module m => k.visitModule m
  | .package p => k.visitPackage docs p

def walkScopes (docs : Bool) (i : Index) : List Scope → Feed σ ε Index
  | [] => pure i
  | s :: ss => do
    let _ ← k.visitScope docs s
    walkScopes docs (i.enter s) ss

/-- Walks a program and hands over each fact as it is finished. -/
def walk (docs : Bool) (p : Program) : Feed σ ε Index := k.walkScopes docs {} p.scopes

end Sink

end ProgramFacts
