import ProgramFacts.Console
import ProgramFacts.FactFile
import ProgramFacts.FileTree
import ProgramFacts.Term.Layout

/-!
# Output

What a run does to the world is a list of actions: messages, and files that are written whole. The list is
known before any of it is done. Doing it stops at the first file that cannot be written.
-/

namespace ProgramFacts

/-- Why a file was not written, and which. -/
inductive OutputFault
  /-- The path has a null character. -/
  | nullCharacter
  | system (path : Path) (f : SystemFault)
deriving DecidableEq

def OutputFault.message : OutputFault → String
  | .nullCharacter => "embedded null byte"
  | .system path f => "Failed to write " ++ path.text ++ ": " ++ f.message

def OutputFault.of (path : Path) : WriteFault → OutputFault
  | .nullCharacter => .nullCharacter
  | .system f => .system path f

inductive Action
  | tell (m : Message)
  | write (path : Path) (content : String)
deriving DecidableEq

/-- The messages among actions. -/
def Action.message? : Action → Option Message
  | .tell m => some m
  | .write _ _ => none

/-- What doing actions leaves. -/
structure Deed where
  tree : FileTree
  /-- What was told before the end. -/
  messages : List Message
  result : Except OutputFault Unit

/-- Does actions in order on a file tree, up to the first that fails. -/
def perform (t : FileTree) : List Action → Deed
  | [] => ⟨t, [], .ok ()⟩
  | .tell m :: as =>
    let d := perform t as
    { d with messages := m :: d.messages }
  | .write path content :: as =>
    match t.write path content with
    | (made, .ok ()) => perform made as
    | (made, .error f) => ⟨made, [], .error (.of path f)⟩

/-- What is to be done, with files told by what they are for. -/
inductive Output.Step
  | tell (m : Message)
  | write (f : FactFile) (fact : Term)

def Event.step : Event → Output.Step
  | .warning w => .tell ⟨.warning, w.message⟩
  | .write key fact => .write key.file fact

/-- A directory of facts, and the files written there in one run, each once. -/
structure Output where
  root : Path
  style : Term.Style
  written : List Path := []

namespace Output

/-- What a file with a fact holds. -/
def content (o : Output) (fact : Term) : String := fact.render o.style ++ "\n"

/-- What is told of a file that has been written before. -/
def overwrote (path : Path) : Message :=
  ⟨.warning, "Overwrote " ++ path.text ++ ": written twice in this run"⟩

/-- Notes a file as written. -/
def note (o : Output) (path : Path) : Output :=
  if path ∈ o.written then o else { o with written := o.written ++ [path] }

/-- What writing a fact does: a file, and a warning if the run has written it before. -/
def writing (o : Output) (f : FactFile) (fact : Term) : List Action :=
  let path := f.path o.root
  .write path (o.content fact) :: if path ∈ o.written then [.tell (overwrote path)] else []

/-- Writes a fact to a file tree; a file that was not written is not noted. -/
def write (o : Output) (t : FileTree) (f : FactFile) (fact : Term) : Output × Deed :=
  let d := perform t (o.writing f fact)
  match d.result with
  | .ok () => (o.note (f.path o.root), d)
  | .error _ => (o, d)

/-- What steps in order do, and what they leave noted if nothing fails. -/
def plan (o : Output) : List Step → Output × List Action
  | [] => (o, [])
  | .tell m :: ss =>
    let (after, as) := o.plan ss
    (after, .tell m :: as)
  | .write f fact :: ss =>
    let (after, as) := (o.note (f.path o.root)).plan ss
    (after, o.writing f fact ++ as)

end Output

end ProgramFacts
