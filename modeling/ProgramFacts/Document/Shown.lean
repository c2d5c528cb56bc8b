import ProgramFacts.Document
import ProgramFacts.Numeral.Reading
import ProgramFacts.Text.Quoted
import ProgramFacts.Text.Pieces

/-!
# Documents as texts

A document becomes a text in two ways: `asText` is what stands for it where a name is wanted, `shown` is how a
message shows it. They differ for texts, which are quoted when shown; what a collection holds is always shown.
A collection met again inside itself is only hinted at. No text is made of a document that holds an integer with
too many digits: `asText?` and `shown?` are the texts that can be had.
-/

namespace ProgramFacts

open Numeral (Binary64 messageStyle)

/-- How far a moment is off universal time. -/
def offsetShown (minutes : Int) : String :=
  if minutes = 0 then "datetime.timezone.utc" else "datetime.timezone(" ++ durationShown minutes ++ ")"

def Date.shown (d : Date) : String :=
  "datetime.date(" ++ Text.joinWith ", " ([d.year, d.month, d.day].map toString) ++ ")"

/-- A time of day is shown without the zeros that end it, up to the minute. -/
def Moment.shown (m : Moment) : String :=
  let late := if m.microsecond ≠ 0 then [m.second, m.microsecond] else if m.second ≠ 0 then [m.second] else []
  let fields := ([m.date.year, m.date.month, m.date.day, m.hour, m.minute] ++ late).map toString
  let zone := match m.offset with
    | none => []
    | some o => ["tzinfo=" ++ offsetShown o]
  "datetime.datetime(" ++ Text.joinWith ", " (fields ++ zone) ++ ")"

namespace Scalar

/-- The scalar where a name is wanted. -/
def asText : Scalar → String
  | .null => "None"
  | .bool b => if b then "True" else "False"
  | .integer n => toString n
  | .number x => x.text messageStyle
  | .text s => s
  | .binary bs => Text.quotedBytes bs
  | .date d => d.text
  | .moment m => m.text

/-- The scalar in a message. -/
def shown : Scalar → String
  | .text s => Text.quoted s
  | .date d => d.shown
  | .moment m => m.shown
  | s => s.asText

end Scalar

/-- Several things in order: one thing alone is followed by a comma. -/
def shownTuple : List String → String
  | [] => "()"
  | [s] => "(" ++ s ++ ",)"
  | ss => "(" ++ Text.joinWith ", " ss ++ ")"

namespace Scalar

/-- A prime below a power of two, so that powers of two have simple remainders. -/
def hashModulus : Nat := Nat.pow 2 61 - 1

/-- The remainder of a number, with its sign; minus one gives way to minus two. -/
def hashOfParts (negative : Bool) (remainder : Nat) : Int :=
  let h := Binary64.signed negative remainder
  if h = -1 then -2 else h

/-- A number that equal numbers share, whatever they are written like. -/
def hash? : Scalar → Option Int
  | .bool b => some (if b then 1 else 0)
  | .integer n => some (hashOfParts (decide (n < 0)) (n.natAbs % hashModulus))
  | .number (.finite negative s e) =>
    some (hashOfParts negative (s * Nat.pow 2 (Int.emod e 61).toNat % hashModulus))
  | .number (.infinite negative) => some (Binary64.signed negative 314159)
  | _ => none

/-- How many places there are for so many members: the least power of two with more than twice as many, and
never fewer than eight, which are enough for four. -/
def placesFor (count : Nat) : Nat := if count < 5 then 8 else Nat.pow 2 ((2 * count).log2 + 1)

/-- The members of a set in the order in which they are shown: numbers by their places. -/
def inPlaces (members : List Scalar) : List Scalar :=
  let places : Int := placesFor members.length
  let place (s : Scalar) : Int := Int.emod ((hash? s).getD 0) places
  members.mergeSort fun a b => decide (place a ≤ place b)

end Scalar

def shownSet (members : List Scalar) : String :=
  if members.isEmpty then "set()"
  else "\x7b" ++ Text.joinWith ", " ((Scalar.inPlaces members).map (·.shown)) ++ "\x7d"

/-- What stands for a collection inside itself. -/
def Document.hint : Document → String
  | .list _ => "[...]"
  | .tuple _ => "(...)"
  | .mapping _ => "\x7b...\x7d"
  | _ => "..."

mutual

/-- The document in a message, below the collections with the given labels. -/
def Document.shownBelow (labels : List Nat) : Document → String
  | .scalar s => s.shown
  | .list ds => "[" ++ Text.joinWith ", " (shownItems labels ds) ++ "]"
  | .tuple ds => shownTuple (shownItems labels ds)
  | .set ss => shownSet ss
  | .mapping es => "\x7b" ++ Text.joinWith ", " (shownEntries labels es) ++ "\x7d"
  | .knot l d => if l ∈ labels then d.hint else d.shownBelow (l :: labels)
  | .endless => Document.endless.hint

def shownItems (labels : List Nat) : List Document → List String
  | [] => []
  | d :: ds => d.shownBelow labels :: shownItems labels ds

def shownEntries (labels : List Nat) : List (Scalar × Document) → List String
  | [] => []
  | (k, d) :: es => (k.shown ++ ": " ++ d.shownBelow labels) :: shownEntries labels es

end

namespace Document

/-- The document in a message. -/
def shown (d : Document) : String := d.shownBelow []

/-- The document where a name is wanted. -/
def asText : Document → String
  | .scalar s => s.asText
  | d => d.shown

end Document

/-- Whether a scalar can be written. -/
def Scalar.isWritable : Scalar → Bool
  | .integer n => Numeral.isWritable n
  | _ => true

mutual

/-- Whether all that a document holds can be written, below the collections with the given labels. -/
def Document.isWritableBelow (labels : List Nat) : Document → Bool
  | .scalar s => s.isWritable
  | .list ds => areWritable labels ds
  | .tuple ds => areWritable labels ds
  | .set ss => ss.all Scalar.isWritable
  | .mapping es => areEntriesWritable labels es
  | .knot l d => decide (l ∈ labels) || d.isWritableBelow (l :: labels)
  | .endless => true

def areWritable (labels : List Nat) : List Document → Bool
  | [] => true
  | d :: ds => d.isWritableBelow labels && areWritable labels ds

def areEntriesWritable (labels : List Nat) : List (Scalar × Document) → Bool
  | [] => true
  | (k, d) :: es => k.isWritable && d.isWritableBelow labels && areEntriesWritable labels es

end

/-- Whether all that a document holds can be written. -/
def Document.isWritable (d : Document) : Bool := d.isWritableBelow []

/-- The scalar where a name is wanted, if it can be written. -/
def Scalar.asText? (s : Scalar) : Option String := if s.isWritable then some s.asText else none

namespace Document

/-- The document where a name is wanted, if it can be written. -/
def asText? (d : Document) : Option String := if d.isWritable then some d.asText else none

/-- The document in a message, if it can be written. -/
def shown? (d : Document) : Option String := if d.isWritable then some d.shown else none

end Document

end ProgramFacts
