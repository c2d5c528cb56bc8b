import ProgramFacts.Document
import ProgramFacts.Facts.Fault
import ProgramFacts.Term

/-!
# Documentation atoms

Documentation is kept on one line: a line feed becomes a backslash and the letter n, a carriage return is
dropped. Facts without documentation have the empty atom in its place.
-/

namespace ProgramFacts

/-- The text on one line. -/
def oneLine : List Char → List Char
  | [] => []
  | c :: cs =>
    if c = '\n' then '\\' :: 'n' :: oneLine cs
    else if c = '\r' then oneLine cs
    else c :: oneLine cs

/-- The documentation atom; `docs` says whether documentation is wanted. -/
def encodeDoc (docs : Bool) (doc : Document) : Except EncodeFault Term :=
  if docs && doc.isGiven then
    match doc with
    | .scalar (.text s) => .ok (.atom (String.ofList (oneLine s.toList)))
    | .scalar (.date _) => .error .calendar
    | .scalar (.moment _) => .error .calendar
    | .scalar (.binary _) => .error .binary
    | d => .error (.notText d.kindName)
  else .ok (.atom "")

end ProgramFacts
