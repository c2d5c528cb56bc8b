import ProgramFacts.Document.Calendar
import ProgramFacts.Numeral.Reading
import ProgramFacts.Text.Quoted
import ProgramFacts.Text.Utf8

/-!
# Faults of YAML texts
-/

namespace ProgramFacts.Yaml

/-- Why a text gives no document. -/
inductive Fault
  /-- The text is not well formed, or says what cannot be built. -/
  | unreadable
  /-- The text ends within something. -/
  | unfinished
  /-- Some bytes are no text. -/
  | encoding (f : Text.Utf8Fault)
  /-- An escape gives the number of no character. -/
  | codePoint (n : Nat)
  /-- A text marked as an integer is none. -/
  | integer (f : Numeral.IntegerFault)
  /-- A text marked as a number is none. -/
  | number (text : String)
  /-- A number by sixties has too many digits. -/
  | tooManySixties
  /-- A text marked as a truth value is none. -/
  | truth (text : String)
  /-- A text marked as a number has no digits at all. -/
  | noDigits
  /-- A text marked as a moment is none. -/
  | moment
  /-- A mapping is marked as a moment. -/
  | momentMapping
  | calendar (f : CalendarFault)
  /-- The text of a node is that of the node itself. -/
  | endless
deriving DecidableEq

namespace Fault

/-- Numbers from here on are beyond all counting of characters. -/
def codePointLimit : Nat := Nat.pow 2 31

def message : Fault → String
  | .unreadable | .unfinished => "unreadable document"
  | .encoding f => f.message
  | .codePoint n =>
    if n < codePointLimit then "chr() arg not in range(0x110000)" else "Python int too large to convert to C int"
  | .integer f => f.message
  | .number text => "could not convert string to float: " ++ Text.quoted text
  | .tooManySixties => "int too large to convert to float"
  | .truth text => Text.quoted text
  | .noDigits => "string index out of range"
  | .moment => "'NoneType' object has no attribute 'groupdict'"
  | .momentMapping => "expected string or bytes-like object, got 'list'"
  | .calendar f => f.message
  | .endless => "maximum recursion depth exceeded"

end Fault

end ProgramFacts.Yaml
