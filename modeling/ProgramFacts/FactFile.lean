import ProgramFacts.Facts.Walk
import ProgramFacts.Path

/-!
# Fact files

Facts lie in a directory tree along the dotted names of what they describe. Each fact has a file, told by the
dotted name of its directory and its own name there.
-/

namespace ProgramFacts

structure FactFile where
  /-- The dotted name of the directory. -/
  hierarchy : String
  name : String
deriving DecidableEq

/-- The end of the names of fact files. -/
def factExtension : String := ".pl"

namespace FactFile

/-- The path of a fact file below a root. -/
def path (root : Path) (f : FactFile) : Path :=
  let segments := if f.hierarchy = "" then [] else (Text.split '.' f.hierarchy.toList).map String.ofList
  (segments.foldl (fun p s => p.join (.ofText s)) root).join (.ofText (f.name ++ factExtension))

/-- The file of an index, named as told or else for the fact in it. -/
def ofIndex (name : String) (fact : Term) : FactFile :=
  ⟨"", if name = "" then fact.functor else name⟩

end FactFile

/-- The file of a fact that a walk writes. -/
def Key.file : Key → FactFile
  | .module n => ⟨n, "module"⟩
  | .package n => ⟨n, "package"⟩
  | .type p n => ⟨p, n⟩

end ProgramFacts
