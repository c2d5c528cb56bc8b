import ProgramFacts.CommandLine

/-!
# The program

Reads the files that a command line names, does what it asks for on the disk, and tells and prints the rest.
-/

namespace ProgramFacts.Disk

/-- The fault that the system reports. -/
def faultOf : IO.Error → SystemFault
  | .alreadyExists .. => .exists
  | .inappropriateType _ code _ => if code = 21 then .isDirectory else .notDirectory
  | .invalidArgument .. => .nameTooLong
  | .permissionDenied _ code said | .resourceExhausted _ code said => .other code.toNat said
  | _ => .notFound

/-- The bytes of the file at a path, if it is one. -/
def read (p : Path) : IO (Except SystemFault (List UInt8)) := do
  if p.hasNull then return .error .notFound
  try
    let content ← IO.FS.readBinFile p.text
    return .ok content.toList
  catch e => return .error (faultOf e)

def isDirectory (p : Path) : IO Bool := do
  let place := (← IO.currentDir) / p.text
  place.isDir

def makeDirectory (p : Path) : IO (Except SystemFault Unit) := do
  try
    IO.FS.createDir p.text
    return .ok ()
  catch e => return .error (faultOf e)

/-- Makes the directory of the first `n` names of a path, and those above it that are missing. -/
def makeDirectories (p : Path) (n : Nat) : IO (Except SystemFault Unit) := do
  let here := p.take n
  match ← makeDirectory here, n with
  | .error .notFound, n + 1 =>
    match ← makeDirectories p n with
    | .error f => return .error f
    | .ok () =>
      let made ← makeDirectory here
      return if ← isDirectory here then .ok () else made
  | made, _ => return if ← isDirectory here then .ok () else made

/-- Writes a file, making the directories above it if they are missing. -/
def write (p : Path) (content : String) : IO (Except OutputFault Unit) := do
  if p.hasNull then return .error .nullCharacter
  match ← makeDirectories p.parent p.parent.parts.length with
  | .error f => return .error (.system p f)
  | .ok () =>
    try
      IO.FS.writeFile p.text content
      return .ok ()
    catch e => return .error (.system p (faultOf e))

/-- Does actions in order, up to the first that fails. -/
def perform (tell : Message → IO Unit) : List Action → IO (Except OutputFault Unit)
  | [] => return .ok ()
  | .tell m :: as => do
    tell m
    perform tell as
  | .write path content :: as => do
    match ← write path content with
    | .ok () => perform tell as
    | .error f => return .error f

/-- Does what arguments ask for, and gives the code that the program ends with. -/
def generate (a : CommandLine.Arguments) : IO UInt32 := do
  let working := Path.ofText (← IO.currentDir).toString
  let held ← a.inputs.mapM fun p => do return (p, ← read p)
  let s := CommandLine.sessionOf a working.parts fun p => (held.lookup p).getD (.error .notFound)
  let tell (m : Message) : IO Unit := IO.eprint (s.shown [m])
  let c := s.closing (← perform tell s.actions)
  c.messages.forM tell
  IO.print c.printed
  match c.ending with
  | .exit code => return code
  | .broken f =>
    IO.eprintln f.message
    return 1

end ProgramFacts.Disk

def main (words : List String) : IO UInt32 :=
  match ProgramFacts.CommandLine.parse words with
  | .error f => do
    IO.eprint (ProgramFacts.CommandLine.usageText f)
    return 2
  | .ok .help => do
    IO.print (ProgramFacts.CommandLine.textOf ProgramFacts.CommandLine.helpLines)
    return 0
  | .ok (.generate a) => ProgramFacts.Disk.generate a
