import ProgramFacts.Model.Program
import ProgramFacts.Model.Reading.Declarations

/-!
# Reading programs

A program is a mapping with modules and packages. A module's directives stand under one key per kind and are
taken in the order of the kinds.
-/

namespace ProgramFacts

def readRequires : Reader Directive
  | _, .scalar (.text s) => .ok (.requires s [] [])
  | place, d => do
    let es ← readMapping place d
    let name ← es.readText place "module"
    let modifiers ← es.readTexts place "modifiers"
    let annotations ← es.readNotes place
    pure (.requires name modifiers annotations)

def readExports : Reader Directive
  | _, .scalar (.text s) => .ok (.exports s [] [])
  | place, d => do
    let es ← readMapping place d
    let package ← es.readText place "package"
    let targets ← es.readTexts place "to"
    let annotations ← es.readNotes place
    pure (.exports package targets annotations)

def readProvides : Reader Directive := fun place d => do
  let es ← readMapping place d
  let service ← es.readTypeAt place "service"
  let implementations ← es.readEach readType place "with"
  let annotations ← es.readNotes place
  pure (.provides service implementations annotations)

def readModule : Reader Module := fun place d => do
  let es ← readMapping place d
  let requires ← es.readEach readRequires place "requires"
  let exports ← es.readEach readExports place "exports"
  let uses ← es.readEach readType place "uses"
  let provides ← es.readEach readProvides place "provides"
  let name ← es.readText place "name"
  let modifiers ← es.readTexts place "modifiers"
  let packages ← es.readTexts place "packages"
  pure { name, modifiers, directives := requires ++ exports ++ uses.map .uses ++ provides, packages }

def readPackage : Reader Package := fun place d => do
  let es ← readMapping place d
  let name ← es.readText place "name"
  let members ← es.readEach readDeclaration place "members"
  let annotations ← es.readNotes place
  pure { name, members, annotations, doc := es.getNull "doc" }

def readProgramAt : Reader Program := fun place d => do
  let es ← readMapping place d
  let modules ← es.readEach readModule place "modules"
  let packages ← es.readEach readPackage place "packages"
  pure { modules, packages }

/-- The program that a document describes. -/
def readProgram (d : Document) : Except Fault Program := readProgramAt {} d

end ProgramFacts
