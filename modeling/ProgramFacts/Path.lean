import ProgramFacts.Text.Pieces

/-!
# Paths

A path is a number of leading slashes and the names between the others. Empty names and single dots say
nothing and are left out; two dots are kept, since only the file system knows what they lead to.
-/

namespace ProgramFacts

structure Path where
  /-- None for a relative path; two are told from one. -/
  slashes : Nat
  parts : List String
deriving DecidableEq

namespace Path

/-- Whether a name leads anywhere. -/
def isPart (cs : List Char) : Bool := !(cs.isEmpty || cs == ['.'])

def partsOf (cs : List Char) : List String := ((Text.split '/' cs).filter isPart).map String.ofList

/-- How many of the slashes at the start count: exactly two are two, more are one. -/
def slashesOf (cs : List Char) : Nat :=
  let n := (cs.takeWhile (· == '/')).length
  if n ≤ 2 then n else 1

def ofText (s : String) : Path := ⟨slashesOf s.toList, partsOf s.toList⟩

/-- The path as a text; the empty path is a dot. -/
def text (p : Path) : String :=
  if p.slashes = 0 ∧ p.parts = [] then "."
  else String.ofList (List.replicate p.slashes '/') ++ Text.joinWith "/" p.parts

/-- The second path from the first one; an absolute path is the same from everywhere. -/
def join (p q : Path) : Path := if q.slashes = 0 then { p with parts := p.parts ++ q.parts } else q

def parent (p : Path) : Path := { p with parts := p.parts.dropLast }

/-- The path of the first names. -/
def take (p : Path) (n : Nat) : Path := { p with parts := p.parts.take n }

/-- What follows the last dot of the last name, with the dot, if something stands on both its sides. -/
def suffix (p : Path) : String :=
  match p.parts.getLast? with
  | none => ""
  | some name =>
    let after := name.toList.reverse.takeWhile (· ≠ '.')
    let before := name.length - after.length - 1
    if after.length < name.length ∧ 0 < before ∧ after ≠ [] then String.ofList ('.' :: after.reverse) else ""

/-- The path from another one, if it lies below it. -/
def relativeTo? (p root : Path) : Option Path :=
  if p.slashes = root.slashes ∧ root.parts.isPrefixOf p.parts then
    some ⟨0, p.parts.drop root.parts.length⟩
  else none

/-- The names of an absolute path with two dots taken as one step up. -/
def normalize (parts : List String) : List String :=
  parts.foldl (fun acc n => if n = ".." then acc.dropLast else acc ++ [n]) []

/-- The absolute path from a directory, without dots and with one slash at its start. -/
def resolve (p : Path) (directory : List String) : Path :=
  ⟨1, normalize (if p.slashes = 0 then directory ++ p.parts else p.parts)⟩

/-- Whether no file system takes the path, for the null character in it. -/
def hasNull (p : Path) : Bool := p.parts.any (·.toList.contains '\x00')

end Path

end ProgramFacts
