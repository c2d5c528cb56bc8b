import ProgramFacts.Facts.Declaration
import ProgramFacts.Facts.Form.Encode
import ProgramFacts.Facts.Scope

/-!
# The facts of unchecked parts

Visits of modules, packages, types and members, where any form may stand for any other. What a part is made of
is looked at in the order of its fact, so of several faults the first one there is found.
-/

namespace ProgramFacts.Form

open Written (compound list)

/-- The name within its package, if it can be written; a package that is not given adds nothing. -/
def qualify? (package name : Form) : Option String :=
  if package.isGiven then do
    let package ← package.asText?
    let name ← name.asText?
    pure (package ++ "." ++ name)
  else name.asText?

/-- Whether a kind is one of some words. -/
def isKindIn (kind : Form) (words : List String) : Bool := kind.text?.any (words.contains ·)

/-! ## Members -/

/-- The parts that methods and constructors share after the type parameters, given those between. -/
def callParts (docs : Bool) (f : Form) : Visit (List Written) := do
  let parameters ← (← f.get "parameters").encodeParameters
  let throws ← (← f.get "thrown_types").encodeThrows
  let notes ← (← f.get "annotations").encodeNotes
  let doc ← (← f.get "doc").encodeDoc docs
  pure [parameters, throws, notes, doc]

/-- A method or a constructor gives its fact to the scope; initializers are left out. -/
def visitExecutable (docs : Bool) (f : Form) : Visit Unit := do
  let kind ← f.get "kind"
  let name ← f.get "name"
  if kind == .text "METHOD" then
    let modifiers ← (← f.get "modifiers").encodeModifiers
    let typeParameters ← (← f.get "type_parameters").encodeTypeParameters
    let returnType ← (← f.get "return_type").encodeType
    let parts ← f.callParts docs
    Visit.contribute (compound "method" ([name.atom, modifiers, typeParameters, returnType] ++ parts))
    Visit.count { methods := 1 }
  else if kind == .text "CONSTRUCTOR" then
    let modifiers ← (← f.get "modifiers").encodeModifiers
    let typeParameters ← (← f.get "type_parameters").encodeTypeParameters
    let parts ← f.callParts docs
    Visit.contribute (compound "constructor" ([name.atom, modifiers, typeParameters] ++ parts))
    Visit.count { constructors := 1 }
  else
    let kind ← Visit.text kind.asText?
    let name ← Visit.text name.asText?
    Visit.skip (.executableKind kind name)

/-- A field gives its fact to the scope; other variables belong to the scopes that declare them. -/
def visitVariable (docs : Bool) (f : Form) : Visit Unit := do
  let kind ← f.get "kind"
  let name ← f.get "name"
  if kind.isKindIn ignoredVariableKinds then pure ()
  else if kind == .text "FIELD" then
    let modifiers ← (← f.get "modifiers").encodeModifiers
    let type ← (← f.get "type").encodeType
    let notes ← (← f.get "annotations").encodeNotes
    let doc ← (← f.get "doc").encodeDoc docs
    Visit.contribute (compound "field" [name.atom, modifiers, type, notes, doc])
    Visit.count { fields := 1 }
  else
    let kind ← Visit.text kind.asText?
    let name ← Visit.text name.asText?
    Visit.skip (.variableKind kind name)

/-! ## Types -/

/-- The fact of a type of a known shape. -/
def typeFact (docs : Bool) (package f : Form) (members : Written) (shape : TypeShape) : Visit Written := do
  let name ← f.get "name"
  let modifiers ← (← f.get "modifiers").encodeModifiers
  let head := [name.atom, package.atom, modifiers]
  let typeParameters : Visit Written := do
    (← f.get "type_parameters").encodeTypeParameters
  let interfaces : Visit Written := do
    (← f.get "interfaces").encodeImplements
  let notes : Visit Written := do
    (← f.get "annotations").encodeNotes
  let doc : Visit Written := do
    (← f.get "doc").encodeDoc docs
  match shape with
  | .classType =>
    let typeParameters ← typeParameters
    let superclass ← (← f.get "superclass").encodeExtends
    let interfaces ← interfaces
    let permitted ← (← f.get "permitted_subclasses").encodeNames
    let notes ← notes
    let doc ← doc
    pure (compound "class" (head ++ [typeParameters, superclass, interfaces, permitted, members, notes, doc]))
  | .interface =>
    let typeParameters ← typeParameters
    let interfaces ← interfaces
    let notes ← notes
    let permitted ← (← f.get "permitted_subclasses").encodeEach fun p =>
      pure (compound "declared_type" [p.atom, list []])
    let doc ← doc
    pure (compound "interface" (head ++ [typeParameters, interfaces, members, notes, permitted, doc]))
  | .enumeration =>
    let interfaces ← interfaces
    let notes ← notes
    let doc ← doc
    pure (compound "enum" (head ++ [interfaces, members, notes, doc]))
  | .annotationType =>
    let notes ← notes
    let doc ← doc
    pure (compound "annotation_type" (head ++ [notes, doc]))
  | .record =>
    let typeParameters ← typeParameters
    let interfaces ← interfaces
    let components ← (← f.get "record_components").encodeComponents
    let notes ← notes
    let doc ← doc
    pure (compound "record" (head ++ [typeParameters, interfaces, components, members, notes, doc]))

/-- Visits a type, given how its members are visited: its fact is written, and the scope around it gets a
marker. A type of no known shape is left out with all that is in it. -/
def visitTypeWith (docs : Bool) (package : Form) (member : Form → Visit Unit) (f : Form) :
    Visit (Option Written) := do
  let kind ← f.get "kind"
  match kind.text?.bind TypeShape.ofKind? with
  | none =>
    let name ← f.get "name"
    let kind ← Visit.text kind.asText?
    let name ← Visit.text (qualify? package name)
    Visit.skip (.typeKind kind name)
    pure none
  | some shape =>
    let members ← f.itemsOf "members"
    let contributions ← Visit.inScope (members.forM member)
    let fact ← typeFact docs package f (list contributions) shape
    let name ← f.get "name"
    Visit.contribute (compound "type_declaration" [name.atom, kind.atom])
    Visit.write (.type package.asText name.asText) fact
    Visit.count { types := 1 }
    pure (some fact)

/-- Visits a member of a type. The fuel is more than its depth. -/
def visitMemberIn (docs : Bool) (package : Form) : Nat → Form → Visit Unit
  | 0, _ => pure ()
  | fuel + 1, f =>
    match f with
    | .record .type _ => do
      let _ ← visitTypeWith docs package (visitMemberIn docs package fuel) f
    | .record .executable _ => f.visitExecutable docs
    | .record .variable _ => f.visitVariable docs
    | f => do
      let shown ← Visit.text f.shown?
      Visit.skip (.member shown)

/-- Visits a member of a type. -/
def visitMember (docs : Bool) (package f : Form) : Visit Unit := visitMemberIn docs package (f.depth + 1) f

/-- Visits a type and gives its fact. -/
def visitType (docs : Bool) (package f : Form) : Visit (Option Written) :=
  visitTypeWith docs package (visitMember docs package) f

/-! ## Scopes -/

/-- Whether a required module goes without saying. -/
def isImpliedRequirement (f : Form) : Visit Bool := do
  if (← f.get "module") == .text baseModule then
    let modifiers ← (← f.itemsOf "modifiers").mapM lower
    pure (!modifiers.any (["transitive", "static"].contains ·))
  else pure false

/-- The term of a directive, if it has one. -/
def visitDirective (moduleName f : Form) : Visit (Option Written) := do
  let notes : Visit Written := do
    (← f.get "annotations").encodeNotes
  match f with
  | .record .requires _ =>
    if ← f.isImpliedRequirement then pure none
    else
      let modifiers ← (← f.get "modifiers").encodeEach fun m => do
        let word ← m.lower
        pure (.ok (.atom word))
      let required ← f.get "module"
      let notes ← notes
      pure (some (compound "requires" [modifiers, required.atom, notes]))
  | .record .exports _ =>
    let package ← f.get "package"
    let targets ← f.get "target_modules"
    if targets.isGiven then Visit.noteInternal package
    let names ← targets.encodeNames
    let notes ← notes
    pure (some (compound "exports" [package.atom, names, notes]))
  | .record .uses _ =>
    let service ← (← f.get "service").encodeType
    pure (some service)
  | .record .provides _ =>
    let service ← (← f.get "service").encodeType
    let implementations ← (← f.get "implementations").encodeTypes
    let notes ← notes
    pure (some (compound "provides" [service, implementations, notes]))
  | f =>
    let shown ← Visit.text f.shown?
    let moduleName ← Visit.text moduleName.asText?
    Visit.skip (.directive shown moduleName)
    pure none

/-- Whether a form is of a sort. -/
def isOf (sort : FormSort) : Form → Bool
  | .record s _ => s == sort
  | _ => false

/-- Writes the fact of a module and gives it. -/
def visitModule (f : Form) : Visit Written := do
  let directives ← f.itemsOf "directives"
  let name ← f.get "name"
  let terms ← directives.mapM fun d => do
    let term ← visitDirective name d
    pure (d, term)
  let of (sort : FormSort) : Written := list ((terms.filter (·.1.isOf sort)).filterMap (·.2))
  let modifiers ← (← f.get "modifiers").encodeModifiers
  let packages ← (← f.get "packages").encodeNames
  let fact := compound "module"
    [name.atom, modifiers, of .requires, of .exports, of .uses, of .provides, packages]
  Visit.write (.module name.asText) fact
  modify fun t => { t with modules := t.modules ++ [name.asText] }
  Visit.count { modules := 1 }
  pure fact

/-- Visits a member of a package: only types belong there. -/
def visitPackageMember (docs : Bool) (package f : Form) : Visit Unit := do
  if f.isOf .type then
    let _ ← visitType docs package f
  else
    let shown ← Visit.text f.kindOrSelf.shown?
    let package ← Visit.text package.asText?
    Visit.skip (.packageMember shown package)

/-- Writes the facts of a package's types and then its own, and gives that. A package is listed unless it is
known to be internal. -/
def visitPackage (docs : Bool) (f : Form) : Visit Written := do
  let members ← f.itemsOf "members"
  let name ← f.get "name"
  let contributions ← Visit.inScope (members.forM (visitPackageMember docs name))
  let fact := compound "package_declaration" [name.atom, list contributions]
  Visit.write (.package name.asText) fact
  modify fun t => if t.isInternal name then t else { t with packages := t.packages ++ [name.asText] }
  Visit.count { packages := 1 }
  pure fact

/-- Visits all modules of a program and then all of its packages, with a trace of their own. -/
def visitProgram (docs : Bool) (f : Form) : Visit Unit :=
  Visit.afresh do
    (← f.itemsOf "modules").forM fun m => do
      let _ ← m.visitModule
    (← f.itemsOf "packages").forM fun p => do
      let _ ← p.visitPackage docs

end ProgramFacts.Form

namespace ProgramFacts.Trace

/-- What the visits have learnt for the index. -/
def index (t : Trace) : Index :=
  { modules := t.modules, packages := t.packages, internal := t.internal.filterMap Form.text? }

end ProgramFacts.Trace
