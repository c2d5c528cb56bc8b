import ProgramFacts.Facts.Walk
import ProgramFacts.Model.Form

/-!
# Visits of unchecked parts

A visit of a form may fail wherever it looks into one. What it has done before that stays done: the facts that it
wrote, its warnings, its counts, the members that it gave to the scope around it. So a visit goes from one trace
to the next, whether it comes to its end or not.

A name that is no text can be in a term, but such a term cannot be written.
-/

namespace ProgramFacts

/-- A term, or why it cannot be written. -/
abbrev Written := Except EncodeFault Term

namespace Written

def compound (name : String) (arguments : List Written) : Written := .compound name <$> arguments.mapM id

def list (elements : List Written) : Written := .list <$> elements.mapM id

end Written

/-- What visits have done so far. -/
structure Trace where
  /-- The facts and the warnings, in order. -/
  events : List Event := []
  tally : Tally := {}
  modules : List String := []
  packages : List String := []
  /-- The packages that are exported to some modules only. -/
  internal : List Form := []
  /-- The members of the scope that is being visited. -/
  scope : List Written := []

/-- A visit: a result or a fault, and the trace after it. -/
abbrev Visit := ExceptT EncodeFault (StateM Trace)

/-- The trace before anything was visited, in the same scope and after the same events. -/
def Trace.forgetVisits (t : Trace) : Trace := { events := t.events, scope := t.scope }

namespace Visit

def event (e : Event) : Visit Unit := modify fun t => { t with events := t.events ++ [e] }

def warn (w : Warning) : Visit Unit := event (.warning w)

def count (more : Tally) : Visit Unit := modify fun t => { t with tally := t.tally + more }

/-- Leaves something out. -/
def skip (w : Warning) : Visit Unit := do
  count { skipped := 1 }
  warn w

/-- The text that there is. -/
def text (text? : Option String) : Visit String := liftM (textOrOversized text?)

/-- Writes a finished fact. -/
def write (key : Key) (fact : Written) : Visit Unit := do
  let term ← fact
  event (.write key term)

/-- Gives a member to the scope. -/
def contribute (member : Written) : Visit Unit := modify fun t => { t with scope := t.scope ++ [member] }

def setScope (scope : List Written) : Visit Unit := modify fun t => { t with scope }

/-- The members that a visit gives to a scope of its own. -/
def inScope (visit : Visit Unit) : Visit (List Written) := do
  let outer := (← get).scope
  setScope []
  try
    visit
  catch fault =>
    setScope outer
    throw fault
  let members := (← get).scope
  setScope outer
  pure members

/-- A visit that knows of none before it. If it fails, only its events stay. -/
def afresh (visit : Visit Unit) : Visit Unit := do
  let before ← get
  set before.forgetVisits
  try
    visit
  catch fault =>
    modify fun t => { before with events := t.events }
    throw fault

/-- Notes that a package is exported to some modules only. -/
def noteInternal (package : Form) : Visit Unit :=
  modify fun t => if t.internal.contains package then t else { t with internal := t.internal ++ [package] }

end Visit

namespace Trace

/-- Whether a package is not to be listed. -/
def isInternal (t : Trace) (name : Form) : Bool := t.internal.contains name

/-- The internal packages by name. -/
def internalSorted (t : Trace) : List Form :=
  t.internal.mergeSort fun a b => decide (a.asText ≤ b.asText)

/-- The events of a trace are those of what is done next only. -/
def forgetEvents (t : Trace) : Trace := { t with events := [] }

def writes (t : Trace) : List (Key × Term) :=
  t.events.filterMap fun e => match e with
    | .write key fact => some (key, fact)
    | .warning _ => none

def warnings (t : Trace) : List Warning :=
  t.events.filterMap fun e => match e with
    | .warning w => some w
    | .write _ _ => none

end Trace

end ProgramFacts
