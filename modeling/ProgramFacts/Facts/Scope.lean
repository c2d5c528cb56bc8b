import ProgramFacts.Facts.Declaration
import ProgramFacts.Model.Program

/-!
# The facts of a program

Modules come first, then packages, each in order. What the modules export only to some modules is internal:
such packages are written like any other but not listed in the index.
-/

namespace ProgramFacts

open Walk (ofNoted ofResult)

/-- The module that every module requires. -/
def baseModule : String := "java.base"

/-- Whether a required module goes without saying. -/
def isImpliedRequirement (moduleName : String) (modifiers : List String) : Bool :=
  moduleName == baseModule && !modifiers.any fun m => ["transitive", "static"].contains (Text.lower m)

/-- A directive's term, told apart by the list of the module's fact that it goes to. -/
inductive DirectiveTerm
  | requires (t : Term)
  | exports (t : Term)
  | uses (t : Term)
  | provides (t : Term)

namespace Directive

/-- The term of a directive, if it has one. -/
def visit (moduleName : String) : Directive → Walk (Option DirectiveTerm)
  | .requires m ms as =>
    if isImpliedRequirement m ms then pure none
    else do
      let notes ← ofNoted (encodeAnnotations as)
      pure (some (.requires (.compound "requires" [atoms (ms.map Text.lower), .atom m, notes])))
  | .exports p ts as => do
    let notes ← ofNoted (encodeAnnotations as)
    pure (some (.exports (.compound "exports" [.atom p, atoms ts, notes])))
  | .uses t => do
    let service ← ofNoted t.encode
    pure (some (.uses service))
  | .provides t ts as => do
    let service ← ofNoted t.encode
    let implementations ← ofNoted (encodeTypes ts)
    let notes ← ofNoted (encodeAnnotations as)
    pure (some (.provides (.compound "provides" [service, implementations, notes])))
  | .stray f => do
    let shown ← ofResult (textOrOversized f.shown?)
    Walk.skip (.directive shown moduleName)
    pure none

/-- The package that a directive makes internal. -/
def internal? : Directive → Option String
  | .exports p (_ :: _) _ => some p
  | _ => none

/-- The terms of directives in order. -/
def visitList (moduleName : String) : List Directive → Walk (List DirectiveTerm)
  | [] => pure []
  | d :: ds => do
    let t ← d.visit moduleName
    let ts ← visitList moduleName ds
    pure (t.toList ++ ts)

end Directive

namespace DirectiveTerm

def requires? : DirectiveTerm → Option Term
  | .requires t => some t
  | _ => none

def exports? : DirectiveTerm → Option Term
  | .exports t => some t
  | _ => none

def uses? : DirectiveTerm → Option Term
  | .uses t => some t
  | _ => none

def provides? : DirectiveTerm → Option Term
  | .provides t => some t
  | _ => none

end DirectiveTerm

/-- The fact of a module, of the terms of its directives. -/
abbrev Module.fact (m : Module) (ds : List DirectiveTerm) : Term :=
  .compound "module"
    [.atom m.name, encodeModifiers m.modifiers, .list (ds.filterMap (·.requires?)),
      .list (ds.filterMap (·.exports?)), .list (ds.filterMap (·.uses?)), .list (ds.filterMap (·.provides?)),
      atoms m.packages]

/-- Writes the fact of a module and gives it. -/
def Module.visit (m : Module) : Walk Term := do
  let ds ← Directive.visitList m.name m.directives
  let f := m.fact ds
  Walk.write (.module m.name) f
  Walk.count { modules := 1 }
  pure f

/-- How a warning shows a member that a package cannot have: by its kind, if it has one. -/
def Declaration.kindShown? : Declaration → Option String
  | .ofType t _ => some (Text.quoted t.kind)
  | .ofExecutable e => some (Text.quoted e.kind)
  | .ofVariable v => some (Text.quoted v.kind)
  | .stray f => f.kindOrSelf.shown?

/-- Walks a member of a package: only types belong there. -/
def visitPackageMember (docs : Bool) (package : String) : Declaration → Walk (Option Term)
  | .ofType t ds => do
    let f ← visitType docs package t ds
    pure (f.map fun _ => t.marker)
  | d => do
    let shown ← ofResult (textOrOversized d.kindShown?)
    Walk.skip (.packageMember shown package)
    pure none

def visitPackageMembers (docs : Bool) (package : String) : List Declaration → Walk (List Term)
  | [] => pure []
  | d :: ds => do
    let m ← visitPackageMember docs package d
    let ms ← visitPackageMembers docs package ds
    pure (m.toList ++ ms)

/-- The fact of a package, of the markers of its types. -/
abbrev Package.fact (p : Package) (members : List Term) : Term :=
  .compound "package_declaration" [.atom p.name, .list members]

/-- Writes the facts of a package's types and then its own, and gives that. -/
def Package.visit (docs : Bool) (p : Package) : Walk Term := do
  let members ← visitPackageMembers docs p.name p.members
  let f := p.fact members
  Walk.write (.package p.name) f
  Walk.count { packages := 1 }
  pure f

/-- What a walk over scopes has learnt for the index. -/
structure Index where
  modules : List String := []
  packages : List String := []
  /-- The packages that are not to be listed. -/
  internal : List String := []
deriving DecidableEq

/-- A module or a package. -/
inductive Scope
  | module (m : Module)
  | package (p : Package)

namespace Index

def addInternal (names : List String) (n : String) : List String := if n ∈ names then names else names ++ [n]

/-- The index after a scope: a package is listed unless it is known to be internal. -/
def enter (i : Index) : Scope → Index
  | .module m =>
    { i with modules := i.modules ++ [m.name]
             internal := (m.directives.filterMap Directive.internal?).foldl addInternal i.internal }
  | .package p => if p.name ∈ i.internal then i else { i with packages := i.packages ++ [p.name] }

def moduleFact (i : Index) : Term := .compound "module_index" [atoms i.modules]

def packageFact (i : Index) : Term := .compound "package_index" [atoms i.packages]

/-- The internal packages by name. -/
def internalSorted (i : Index) : List String := i.internal.mergeSort fun a b => decide (a ≤ b)

end Index

def Scope.visit (docs : Bool) : Scope → Walk Term
  | .module m => m.visit
  | .package p => p.visit docs

/-- Walks scopes in order. -/
def walkScopes (docs : Bool) (i : Index) : List Scope → Walk Index
  | [] => pure i
  | s :: ss => do
    let _ ← s.visit docs
    walkScopes docs (i.enter s) ss

def Program.scopes (p : Program) : List Scope := p.modules.map .module ++ p.packages.map .package

/-- Walks a program from an empty index. -/
def Program.walk (docs : Bool) (p : Program) : Walk Index := walkScopes docs {} p.scopes

/-- Index and counts, as a walk leaves them. -/
structure WalkState where
  index : Index := {}
  tally : Tally := {}

end ProgramFacts
