import ProgramFacts.Config
import ProgramFacts.Facts.Sink
import ProgramFacts.Model.Source
import ProgramFacts.Output

/-!
# Runs

A run tells and writes until it comes to a result or to a fault. A script has all of its actions at hand before any of
them is done. A course does them as it goes, so that it stops where a file cannot be written, with the rest not even
worked out.
-/

namespace ProgramFacts

/-- Why a run came to no end. -/
inductive RunFault
  | load (f : LoadFault)
  /-- The path of the model, or of the output directory, is no text but of this kind. -/
  | path (kind : String)
  | mode (f : ModeFault)
  | encode (f : EncodeFault)
  | output (f : OutputFault)

def RunFault.message : RunFault → String
  | .load f => f.message
  | .path kind => "expected str, bytes or os.PathLike object, not " ++ kind
  | .mode (.unknown shown) => shown
  | .mode (.collection kind) => collectionMessage kind
  | .encode f => f.message
  | .output f => f.message

/-- The actions of a run and what it comes to if all of them can be done. -/
structure Script (α : Type) where
  actions : List Action
  result : Except RunFault α

namespace Script

instance : Monad Script where
  pure a := ⟨[], .ok a⟩
  bind x f :=
    match x.result with
    | .ok a =>
      let y := f a
      ⟨x.actions ++ y.actions, y.result⟩
    | .error e => ⟨x.actions, .error e⟩

def act (actions : List Action) : Script Unit := ⟨actions, .ok ()⟩

def tell (level : Level) (text : String) : Script Unit := act [.tell ⟨level, text⟩]

/-- A script that does nothing but may fail. -/
def ofResult {α : Type} (r : Except RunFault α) : Script α := ⟨[], r⟩

end Script

/-- What a run on a file tree leaves. -/
structure Run (α : Type) where
  tree : FileTree
  messages : List Message
  result : Except RunFault α

/-- Runs a script on a file tree. -/
def Script.perform {α : Type} (t : FileTree) (s : Script α) : Run α :=
  let d := ProgramFacts.perform t s.actions
  match d.result with
  | .ok () => ⟨d.tree, d.messages, s.result⟩
  | .error f => ⟨d.tree, d.messages, .error (.output f)⟩

/-! ## Courses -/

/-- A file tree and what has been told. -/
structure World where
  tree : FileTree
  messages : List Message := []

/-- What is done to the world, up to a result or a fault. -/
def Course (α : Type) := World → World × Except RunFault α

instance : Monad Course where
  pure a := fun w => (w, .ok a)
  bind x f := fun w =>
    match x w with
    | (w, .ok a) => f a w
    | (w, .error e) => (w, .error e)

namespace Course

def tell (ms : List Message) : Course Unit := fun w => ({ w with messages := w.messages ++ ms }, .ok ())

/-- A course that does nothing but may fail. -/
def ofResult {α : Type} (r : Except RunFault α) : Course α := fun w => (w, r)

/-- What a course leaves that starts on a file tree. -/
def on {α : Type} (t : FileTree) (c : Course α) : Run α :=
  let (w, result) := c { tree := t }
  ⟨w.tree, w.messages, result⟩

end Course

namespace Output

/-- Writes a fact, and gives the output with its file noted. -/
def put (o : Output) (f : FactFile) (fact : Term) : Course Output := fun w =>
  let (after, d) := o.write w.tree f fact
  (⟨d.tree, w.messages ++ d.messages⟩, match d.result with
    | .ok () => .ok after
    | .error f => .error (.output f))

/-- The sink that writes each fact to its file. -/
def sink : Sink (Output × World) OutputFault where
  warn w := fun (o, before) => (o, { before with messages := before.messages ++ [⟨.warning, w.message⟩] })
  write key fact := fun (o, before) =>
    let (after, d) := o.write before.tree key.file fact
    ((after, ⟨d.tree, before.messages ++ d.messages⟩), d.result)

/-- Walks a program and writes its facts. Gives the index, the counts, and the output with the files noted. -/
def walk (o : Output) (docs : Bool) (p : Program) : Course (Index × Tally × Output) := fun w =>
  match sink.walk docs p (o, w) with
  | ((after, w), .ok (i, tally)) => (w, .ok (i, tally, after))
  | ((_, w), .error (.encode f)) => (w, .error (.encode f))
  | ((_, w), .error (.refused f)) => (w, .error (.output f))

end Output

end ProgramFacts
