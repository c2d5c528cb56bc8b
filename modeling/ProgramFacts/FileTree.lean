import ProgramFacts.Path
import ProgramFacts.Text.Quoted

/-!
# File trees

Files and directories by the names that lead to them from the root, and the directory that relative paths
start from. Every operation gives the tree it leaves: making directories may have made some before it failed. Besides
what stands in the way of an operation, the system may refuse it for reasons of its own, place by place.
-/

namespace ProgramFacts

inductive FileEntry
  | file (content : String)
  | directory
deriving DecidableEq

/-- What the system says of an operation that it refuses. -/
inductive SystemFault
  | notFound
  | exists
  | notDirectory
  | isDirectory
  | nameTooLong
  /-- Anything else, by its number and what is said of it. -/
  | other (number : Nat) (said : String)
deriving DecidableEq

namespace SystemFault

def message : SystemFault → String
  | .notFound => "No such file or directory"
  | .exists => "File exists"
  | .notDirectory => "Not a directory"
  | .isDirectory => "Is a directory"
  | .nameTooLong => "File name too long"
  | .other _ said => said

/-- The number by which systems know the fault. -/
def number : SystemFault → Nat
  | .notFound => 2
  | .exists => 17
  | .notDirectory => 20
  | .isDirectory => 21
  | .nameTooLong => 36
  | .other number _ => number

/-- The fault of an operation on a path. -/
def messageFor (f : SystemFault) (p : Path) : String :=
  "[Errno " ++ toString f.number ++ "] " ++ f.message ++ ": " ++ Text.quoted p.text

end SystemFault

/-- Why a file was not written. -/
inductive WriteFault
  /-- The path has a null character, which no system takes. -/
  | nullCharacter
  | system (f : SystemFault)
deriving DecidableEq

structure FileTree where
  /-- The names that lead to the working directory. -/
  working : List String
  entries : List (List String × FileEntry) := []
  /-- The places where the system neither makes a directory nor opens a file to write it, with the number and the text
  of the fault. -/
  refused : List String → Option (Nat × String) := fun _ => none

namespace FileTree

/-- What is at a place. The working directory and those above it are always there. -/
def lookup (t : FileTree) (place : List String) : Option FileEntry :=
  if place.isPrefixOf t.working then some .directory else t.entries.lookup place

def set (t : FileTree) (place : List String) (e : FileEntry) : FileTree :=
  { t with entries := (place, e) :: t.entries.filter (·.1 ≠ place) }

/-- Names are at most so many bytes long, -/
def nameLimit : Nat := 255

/-- and paths shorter than so many. -/
def pathLimit : Nat := 4096

/-- Where a path starts from. -/
def start (t : FileTree) (p : Path) : List String := if p.slashes = 0 then t.working else []

/-- The place of a directory, reached from another one name by name. -/
def enter (t : FileTree) (place : List String) : List String → Except SystemFault (List String)
  | [] => .ok place
  | n :: ns =>
    if n = ".." then t.enter place.dropLast ns
    else if nameLimit < n.utf8ByteSize then .error .nameTooLong
    else match t.lookup (place ++ [n]) with
      | some .directory => t.enter (place ++ [n]) ns
      | some (.file _) => .error .notDirectory
      | none => .error .notFound

/-- The place that a path leads to, whatever is there, with the directory above it there; nothing for the
path of a directory that is known to be there. -/
def locate (t : FileTree) (p : Path) : Except SystemFault (Option (List String)) :=
  if pathLimit ≤ p.text.utf8ByteSize then .error .nameTooLong
  else match p.parts.getLast? with
    | none => .ok none
    | some name => do
      let above ← t.enter (t.start p) p.parts.dropLast
      if name = ".." then pure none
      else if nameLimit < name.utf8ByteSize then .error .nameTooLong
      else pure (some (above ++ [name]))

/-- What a path leads to. -/
def find (t : FileTree) (p : Path) : Option FileEntry :=
  if p.hasNull then none
  else match t.locate p with
    | .error _ => none
    | .ok none => some .directory
    | .ok (some place) => t.lookup place

def isDirectory (t : FileTree) (p : Path) : Bool := t.find p == some .directory

/-- The content of the file at a path. Whatever else is there, no file was found; but a name that is too long
is refused. -/
def read (t : FileTree) (p : Path) : Except SystemFault String :=
  if p.hasNull then .error .notFound
  else match t.locate p with
    | .error .nameTooLong => .error .nameTooLong
    | .error _ => .error .notFound
    | .ok none => .error .notFound
    | .ok (some place) =>
      match t.lookup place with
      | some (.file content) => .ok content
      | _ => .error .notFound

/-- The bytes of the file at a path. -/
def readBytes (t : FileTree) (p : Path) : Except SystemFault (List UInt8) :=
  (fun s => s.toUTF8.toList) <$> t.read p

/-- Makes one directory, which must not be there. -/
def makeDirectory (t : FileTree) (p : Path) : Except WriteFault FileTree :=
  if p.hasNull then .error .nullCharacter
  else match t.locate p with
    | .error f => .error (.system f)
    | .ok none => .error (.system .exists)
    | .ok (some place) =>
      match t.lookup place, t.refused place with
      | some _, _ => .error (.system .exists)
      | none, some (number, said) => .error (.system (.other number said))
      | none, none => .ok (t.set place .directory)

/-- A directory that is there already does as well as a new one. -/
def orExisting (t : FileTree) (p : Path) : Except WriteFault FileTree → FileTree × Except WriteFault Unit
  | .ok made => (made, .ok ())
  | .error .nullCharacter => (t, .error .nullCharacter)
  | .error f => if t.isDirectory p then (t, .ok ()) else (t, .error f)

/-- Makes the directory of the first `n` names of a path, and those above it that are missing. -/
def makeDirectories (t : FileTree) (p : Path) : Nat → FileTree × Except WriteFault Unit
  | 0 => t.orExisting (p.take 0) (t.makeDirectory (p.take 0))
  | n + 1 =>
    match t.makeDirectory (p.take (n + 1)) with
    | .error (.system .notFound) =>
      match t.makeDirectories p n with
      | (above, .error f) => (above, .error f)
      | (above, .ok ()) => above.orExisting (p.take (n + 1)) (above.makeDirectory (p.take (n + 1)))
    | made => t.orExisting (p.take (n + 1)) made

/-- Writes a file in a directory that is there. -/
def writeFile (t : FileTree) (p : Path) (content : String) : FileTree × Except WriteFault Unit :=
  if p.hasNull then (t, .error .nullCharacter)
  else match t.locate p with
    | .error f => (t, .error (.system f))
    | .ok none => (t, .error (.system .isDirectory))
    | .ok (some place) =>
      match t.lookup place, t.refused place with
      | some .directory, _ => (t, .error (.system .isDirectory))
      | _, some (number, said) => (t, .error (.system (.other number said)))
      | _, none => (t.set place (.file content), .ok ())

/-- Writes a file, making the directories above it if they are missing. -/
def write (t : FileTree) (p : Path) (content : String) : FileTree × Except WriteFault Unit :=
  match t.makeDirectories p.parent p.parent.parts.length with
  | (made, .error f) => (made, .error f)
  | (made, .ok ()) => made.writeFile p content

/-- The files below a place: the names that lead to each from there, and its content. -/
def filesBelow (t : FileTree) (place : List String) : List (List String × String) :=
  t.entries.filterMap fun
    | (p, .file content) => if place.isPrefixOf p then some (p.drop place.length, content) else none
    | (_, .directory) => none

/-- The files below the working directory by path. -/
def files (t : FileTree) : List (String × String) :=
  ((t.filesBelow t.working).map fun f => (Text.joinWith "/" f.1, f.2)).mergeSort fun a b => decide (a.1 ≤ b.1)

end FileTree

end ProgramFacts
