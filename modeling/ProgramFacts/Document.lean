import ProgramFacts.Numeral.Shortest
import ProgramFacts.Document.Calendar

/-!
# Documents

The data that model and configuration files hold: scalars, lists, tuples, sets, and mappings whose entries keep
the order in which their keys first appeared. A key is a scalar. Keys that stand for one number or one instant
are one key, whatever they are written like, so an entry set twice keeps its first key and its first place and
takes the last value.

A collection may hold itself. Such a knot is unrolled a number of times that is more than any reader goes round
it, with a label that tells on the way down where the same collection is met again.
-/

namespace ProgramFacts

open Numeral (Binary64)

/-- A single datum. -/
inductive Scalar
  | null
  | bool (b : Bool)
  | integer (n : Int)
  | number (x : Binary64)
  | text (s : String)
  | binary (bytes : List UInt8)
  | date (d : Date)
  | moment (m : Moment)
deriving DecidableEq

/-- A scalar or a collection. -/
inductive Document
  | scalar (s : Scalar)
  | list (items : List Document)
  | tuple (items : List Document)
  | set (members : List Scalar)
  | mapping (entries : List (Scalar × Document))
  /-- A collection that holds itself further down, under the same label. -/
  | knot (label : Nat) (whole : Document)
  /-- Where a knot is unrolled no further. -/
  | endless

/-- The entries of a mapping. -/
abbrev Entries := List (Scalar × Document)

namespace Document

instance : Inhabited Document := ⟨.scalar .null⟩

def null : Document := .scalar .null
def text (s : String) : Document := .scalar (.text s)

end Document

/-- The integer that a truth value or an integer stands for. -/
def Scalar.int? : Scalar → Option Int
  | .bool b => some (if b then 1 else 0)
  | .integer n => some n
  | _ => none

/-- Whether two scalars are one key. -/
def Scalar.sameKey (a b : Scalar) : Bool :=
  match a.int?, b.int? with
  | some m, some n => m == n
  | some m, none => match b with
    | .number y => y.isInt m
    | _ => false
  | none, some n => match a with
    | .number x => x.isInt n
    | _ => false
  | none, none => match a, b with
    | .number x, .number y => x.sameNumber y
    | .moment x, .moment y => x.sameInstant y
    | _, _ => a == b

namespace Entries

/-- Sets a key: an entry that has it keeps its key and place. -/
def set (key : Scalar) (value : Document) : Entries → Entries
  | [] => [(key, value)]
  | (k, v) :: es => if k.sameKey key then (k, value) :: es else (k, v) :: set key value es

/-- The entries set one after the other. -/
def ofList (es : List (Scalar × Document)) : Entries := es.foldl (fun acc e => set e.1 e.2 acc) []

/-- The value under a name. -/
def get? (es : Entries) (name : String) : Option Document :=
  match es with
  | [] => none
  | (k, v) :: es => if k = .text name then some v else get? es name

/-- Whether a name has a value, be it null. -/
def has (es : Entries) (name : String) : Bool := (get? es name).isSome

/-- A value found in a mapping is smaller than the mapping. -/
theorem sizeOf_get?_lt {es : Entries} {name : String} {d : Document} (h : get? es name = some d) :
    sizeOf d < sizeOf es := by
  induction es with
  | nil => simp [get?] at h
  | cons e es ih =>
    obtain ⟨k, v⟩ := e
    simp only [get?] at h
    split at h
    · cases h
      simp +arith
    · have := ih h
      simp +arith
      omega

end Entries

namespace Document

/-- The word for the kind of a document in messages. -/
def kindName : Document → String
  | .scalar .null => "NoneType"
  | .scalar (.bool _) => "bool"
  | .scalar (.integer _) => "int"
  | .scalar (.number _) => "float"
  | .scalar (.text _) => "str"
  | .scalar (.binary _) => "bytes"
  | .scalar (.date _) => "date"
  | .scalar (.moment _) => "datetime"
  | .list _ => "list"
  | .tuple _ => "tuple"
  | .set _ => "set"
  | .mapping _ => "dict"
  | .knot _ d => d.kindName
  | .endless => "object"

/-- Whether a document counts as given: null, false, zero and everything empty do not. -/
def isGiven : Document → Bool
  | .scalar .null => false
  | .scalar (.bool b) => b
  | .scalar (.integer n) => n != 0
  | .scalar (.number x) => !x.isZero
  | .scalar (.text s) => s != ""
  | .scalar (.binary bs) => !bs.isEmpty
  | .scalar (.date _) => true
  | .scalar (.moment _) => true
  | .list ds => !ds.isEmpty
  | .tuple ds => !ds.isEmpty
  | .set ss => !ss.isEmpty
  | .mapping es => !es.isEmpty
  | .knot _ d => d.isGiven
  | .endless => true

end Document

end ProgramFacts
