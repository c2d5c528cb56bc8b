import ProgramFacts.FileTree
import ProgramFacts.Json
import ProgramFacts.Mode
import ProgramFacts.Text.Utf8

/-!
# Configuration

Settings come in three layers: the defaults, a file of the user's, and what the command line says. A later
layer wins. A setting of the command line that is null was not made; one in a file was.
-/

namespace ProgramFacts

/-- Why there is no configuration. -/
inductive ConfigFault
  | notFound (path : Path)
  /-- The system refuses to look for the file. -/
  | system (path : Path) (f : SystemFault)
  | unreadable (path : Path)
  | notMapping (path : Path)
  /-- The defaults are no mapping but of this kind. -/
  | defaults (kind : String)
  /-- What the command line says is no mapping but of this kind. -/
  | overrides (kind : String)
  | mode (f : ModeFault)
  | indent (shown : String)
  | exclude
deriving DecidableEq

/-- The message for a collection where a name is looked up. -/
def collectionMessage (kind : String) : String := "unhashable type: '" ++ kind ++ "'"

def ConfigFault.message : ConfigFault → String
  | .notFound path => "Config file not found: " ++ path.text
  | .system path f => f.messageFor path
  | .unreadable path => "Failed to parse config file " ++ path.text
  | .notMapping path => "Config file " ++ path.text ++ " must hold a JSON object."
  | .defaults kind => "'" ++ kind ++ "' object has no attribute 'update'"
  | .overrides kind => "'" ++ kind ++ "' object has no attribute 'items'"
  | .mode (.unknown shown) =>
    "Invalid output_mode " ++ shown ++ "; expected one of " ++ (Document.list (Mode.choices.map .text)).shown
  | .mode (.collection kind) => collectionMessage kind
  | .indent shown => "indent must be a positive integer, got " ++ shown
  | .exclude => "exclude must be a list of patterns"

/-- The settings when nothing else is said. -/
def defaultSettings : Entries :=
  [(.text "output_dir", .text "prolog-facts"), (.text "output_mode", .text "both"),
    (.text "pretty_print", .scalar (.bool false)), (.text "indent", .scalar (.integer 4)),
    (.text "exclude", .list [])]

/-- Sets the entries of a later layer. -/
def Entries.update (es later : Entries) : Entries := later.foldl (fun acc e => acc.set e.1 e.2) es

def Document.isNull : Document → Bool
  | .scalar .null => true
  | _ => false

/-- A file of settings and its bytes, if it is there. -/
structure SettingsFile where
  path : Path
  content : Except SystemFault (List UInt8)

/-- The settings in a file. -/
def SettingsFile.read (f : SettingsFile) : Except ConfigFault Entries :=
  match f.content with
  | .error .nameTooLong => .error (.system f.path .nameTooLong)
  | .error _ => .error (.notFound f.path)
  | .ok bytes =>
    match Text.decodeUtf8 bytes with
    | .error _ => .error (.unreadable f.path)
    | .ok s =>
      match Json.parse .relaxed (Text.unifyLineEnds s.toList) with
      | .error _ => .error (.unreadable f.path)
      | .ok (.mapping es) => .ok es
      | .ok _ => .error (.notMapping f.path)

namespace Config

def outputMode (es : Entries) : Document := (es.get? "output_mode").getD (.text "both")
def indent (es : Entries) : Document := (es.get? "indent").getD (.scalar (.integer 4))
def exclude (es : Entries) : Document := (es.get? "exclude").getD (.list [])

/-- Whether a setting is a number of blanks, at least one. -/
def isWidth : Document → Bool
  | .scalar (.integer n) => decide (0 < n)
  | _ => false

def isList : Document → Bool
  | .list _ => true
  | _ => false

/-- Checks settings: first the modes, then the indentation, then the patterns. -/
def validate (es : Entries) : Except ConfigFault Unit :=
  match (outputMode es).modes with
  | .error f => .error (.mode f)
  | .ok _ =>
    if isWidth (indent es) then
      if isList (exclude es) then .ok () else .error .exclude
    else .error (.indent (indent es).shown)

/-- The layers one over the other. -/
def merge (defaults user overrides : Entries) : Entries :=
  (defaults.update user).update (overrides.filter fun e => !e.2.isNull)

/-- The entries of a layer, if it is a mapping. -/
def layer (d : Document) (fault : String → ConfigFault) : Except ConfigFault Entries :=
  match d with
  | .mapping es => .ok es
  | d => .error (fault d.kindName)

/-- The configuration of three layers. The file is looked at before the defaults, and what the command line says
after them. -/
def load (defaults : Document) (user : Option SettingsFile) (overrides : Document) :
    Except ConfigFault Entries := do
  let file ← match user with
    | none => pure []
    | some f => f.read
  let base ← layer defaults .defaults
  let last ← layer overrides .overrides
  let merged := merge base file last
  validate merged
  pure merged

end Config

end ProgramFacts
