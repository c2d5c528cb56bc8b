import ProgramFacts.FileTree
import ProgramFacts.Json
import ProgramFacts.Model.Reading.Programs
import ProgramFacts.Yaml

/-!
# Model files

A file holds a program as JSON, if its suffix says so, or else as YAML. Line ends of all kinds count alike.
-/

namespace ProgramFacts

/-- Why no program was loaded. -/
inductive LoadFault
  | notFound (path : Path)
  /-- The system refuses to look for the file. -/
  | system (path : Path) (f : SystemFault)
  | encoding (f : Text.Utf8Fault)
  /-- A document that is not well formed; the detail is told for JSON only. -/
  | unreadable (path : Path) (detail : Option String)
  /-- An integer has too many digits. -/
  | oversized (digits : Nat)
  /-- A scalar that is not what its tag says. -/
  | scalar (f : Yaml.Fault)
  | model (f : Fault)

namespace LoadFault

def message : LoadFault → String
  | .notFound path => "Program model not found: " ++ path.text
  | .system path f => f.messageFor path
  | .encoding f => f.message
  | .unreadable path none => path.text ++ ": unreadable document"
  | .unreadable path (some detail) => path.text ++ ": unreadable document: " ++ detail
  | .oversized digits => (Numeral.IntegerFault.oversized digits).message
  | .scalar f => f.message
  | .model f => f.message

/-- The place that a message begins with, if it begins with one. -/
def place? : LoadFault → Option String
  | .unreadable path _ => some path.text
  | .model f => f.place?.map (·.text)
  | _ => none

/-- The fault of a JSON text. -/
def ofJson (path : Path) (text : List Char) (f : Json.Fault) : LoadFault :=
  match f.problem with
  | .oversized digits => .oversized digits
  | _ => .unreadable path (some (f.message text))

/-- The fault of a YAML text. -/
def ofYaml (path : Path) : Yaml.Fault → LoadFault
  | .unreadable | .unfinished => .unreadable path none
  | .encoding f => .encoding f
  | f => .scalar f

end LoadFault

/-- The text of a JSON file. -/
def decodeWhole (bytes : List UInt8) : Except Text.Utf8Fault (List Char) :=
  (fun s => Text.unifyLineEnds s.toList) <$> Text.decodeUtf8 bytes

/-- The document in a file. -/
def readDocument (path : Path) (bytes : List UInt8) : Except LoadFault Document :=
  if path.suffix = ".json" then do
    let text ← (decodeWhole bytes).mapError .encoding
    (Json.parse .strict text).mapError (.ofJson path text)
  else (Yaml.parse (.ofBytes bytes)).mapError (.ofYaml path)

/-- The program in a file, if the path leads to a file; an empty document describes an empty program. -/
def loadProgram (path : Path) (content : Except SystemFault (List UInt8)) : Except LoadFault Program :=
  match content with
  | .error .nameTooLong => .error (.system path .nameTooLong)
  | .error _ => .error (.notFound path)
  | .ok bytes => do
    let d ← readDocument path bytes
    let d := match d with
      | .scalar .null => .mapping []
      | d => d
    (readProgram d).mapError .model

end ProgramFacts
