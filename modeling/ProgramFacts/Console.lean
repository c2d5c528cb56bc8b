import ProgramFacts.Path

/-!
# The console

Messages have a level. A console drops those below its threshold and colours the others by level, unless it
has no colours. What is said does not depend on the console, only what is shown of it.
-/

namespace ProgramFacts

inductive Level
  | debug
  | info
  | warning
  | error
  | critical
deriving DecidableEq

namespace Level

/-- Where a level stands among thresholds. -/
def rank : Level → Int
  | .debug => 10
  | .info => 20
  | .warning => 30
  | .error => 40
  | .critical => 50

def name : Level → String
  | .debug => "debug"
  | .info => "info"
  | .warning => "warning"
  | .error => "error"
  | .critical => "critical"

/-- The terminal codes that start the colour of a level. -/
def color : Level → String
  | .debug => "\x1b[2m"
  | .info => ""
  | .warning => "\x1b[33m"
  | .error => "\x1b[31m"
  | .critical => "\x1b[31m\x1b[1m"

end Level

structure Message where
  level : Level
  text : String
deriving DecidableEq

structure Console where
  /-- The least rank that is shown. -/
  threshold : Int := Level.info.rank
  colored : Bool := true
deriving DecidableEq

namespace Console

/-- The terminal code that ends all colours. -/
def reset : String := "\x1b[0m"

/-- A text in a colour, if there is one. -/
def paint (c : Console) (text color : String) : String :=
  if c.colored && color != "" then color ++ text ++ reset else text

def shows (c : Console) (m : Message) : Bool := decide (c.threshold ≤ m.level.rank)

/-- A message as it is shown, if it is. -/
def shown? (c : Console) (m : Message) : Option Message :=
  if c.shows m then some { m with text := c.paint m.text m.level.color } else none

/-- What is shown of messages. -/
def log (c : Console) (ms : List Message) : List Message := ms.filterMap c.shown?

end Console

/-- Reports each written file, by its path from a root if it lies below it. -/
def reportWritten (root : Path) (paths : List Path) : List Message :=
  paths.map fun p => ⟨.debug, "WRITE:   " ++ ((p.relativeTo? root).getD p).text⟩

end ProgramFacts
