import ProgramFacts.Document.Shown

/-!
# Output modes

Facts are written with documentation, without, or both ways, each to a directory of its own.
-/

namespace ProgramFacts

inductive Mode
  | full
  | minimal
deriving DecidableEq

namespace Mode

/-- The name of a mode, also of its directory. -/
def name : Mode → String
  | .full => "full"
  | .minimal => "minimal"

/-- Whether facts carry documentation. -/
def hasDocs : Mode → Bool
  | .full => true
  | .minimal => false

/-- The names for choices of modes, by name. -/
def choices : List String := ["both", "full", "minimal"]

/-- The modes that a name chooses, in the order in which they are written. -/
def ofChoice? (choice : String) : Option (List Mode) :=
  if choice = "minimal" then some [.minimal]
  else if choice = "full" then some [.full]
  else if choice = "both" then some [.full, .minimal]
  else none

end Mode

/-- Why a setting chooses no modes. -/
inductive ModeFault
  /-- A choice that there is not. -/
  | unknown (shown : String)
  /-- A collection, which can never be a name. -/
  | collection (kind : String)
deriving DecidableEq

/-- The modes that a setting chooses. -/
def Document.modes : Document → Except ModeFault (List Mode)
  | .scalar (.text s) =>
    match Mode.ofChoice? s with
    | some ms => .ok ms
    | none => .error (.unknown (Text.quoted s))
  | .scalar s => .error (.unknown s.shown)
  | d => .error (.collection d.kindName)

end ProgramFacts
