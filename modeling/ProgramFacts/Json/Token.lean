import ProgramFacts.Document
import ProgramFacts.Numeral.Reading

/-!
# The tokens of JSON texts

A text is cut into placed tokens. A token that goes wrong ends the cutting: whether it matters is up to who
reads the tokens. The relaxed dialect has comments to the end of the line, and no names for numbers that are
none.
-/

namespace ProgramFacts.Json

open Numeral (Binary64)

inductive Dialect
  | strict
  | relaxed
deriving DecidableEq

/-- What can be wrong with a text. -/
inductive Problem
  | byteOrderMark
  | value
  | propertyName
  | colon
  | comma
  | extra
  | unterminated
  | control
  | escape
  | unicodeEscape
  /-- An integer has too many digits. -/
  | oversized (digits : Nat)
deriving DecidableEq

def Problem.message : Problem → String
  | .byteOrderMark => "Unexpected UTF-8 BOM (decode using utf-8-sig)"
  | .value => "Expecting value"
  | .propertyName => "Expecting property name enclosed in double quotes"
  | .colon => "Expecting ':' delimiter"
  | .comma => "Expecting ',' delimiter"
  | .extra => "Extra data"
  | .unterminated => "Unterminated string starting at"
  | .control => "Invalid control character at"
  | .escape => "Invalid \\escape"
  | .unicodeEscape => "Invalid \\uXXXX escape"
  | .oversized digits => (Numeral.IntegerFault.oversized digits).message

/-- A problem and the number of characters before it. -/
structure Fault where
  problem : Problem
  position : Nat
deriving DecidableEq

/-- Whether a problem is one of how a text is written. -/
def Problem.isOfForm : Problem → Bool
  | .oversized _ => false
  | _ => true

/-- The problem with its line, its column and its position in the text, if it is one of form. -/
def Fault.message (f : Fault) (text : List Char) : String :=
  let before := text.take f.position
  let line := before.count '\n' + 1
  let column := (before.reverse.takeWhile (· ≠ '\n')).length + 1
  if f.problem.isOfForm then
    f.problem.message ++ ": line " ++ toString line ++ " column " ++ toString column ++
      " (char " ++ toString f.position ++ ")"
  else f.problem.message

inductive Token
  | openMapping
  | closeMapping
  | openList
  | closeList
  | colon
  | comma
  | text (s : String)
  | scalar (s : Scalar)
  /-- A text that goes wrong. -/
  | badText (f : Fault)
  /-- An integer with too many digits. -/
  | oversized (digits : Nat)
  /-- A character that starts no token. -/
  | other
  | finish

/-- A token and the number of characters before it. -/
structure Placed where
  token : Token
  position : Nat

def hexValue? (c : Char) : Option Nat :=
  if '0' ≤ c ∧ c ≤ '9' then some (c.toNat - '0'.toNat)
  else if 'a' ≤ c ∧ c ≤ 'f' then some (c.toNat - 'a'.toNat + 10)
  else if 'A' ≤ c ∧ c ≤ 'F' then some (c.toNat - 'A'.toNat + 10)
  else none

/-- The number of some hexadecimal digits. -/
def hexNumber? (cs : List Char) : Option Nat :=
  cs.foldl (fun acc c => do
    let n ← acc
    let d ← hexValue? c
    pure (16 * n + d)) (some 0)

/-- The character that a one-letter escape stands for. -/
def escaped? (c : Char) : Option Char :=
  if c = '\x22' ∨ c = '\\' ∨ c = '/' then some c
  else if c = 'b' then some '\x08'
  else if c = 'f' then some '\x0c'
  else if c = 'n' then some '\n'
  else if c = 'r' then some '\r'
  else if c = 't' then some '\t'
  else none

/-- The code units of a text after its opening quote, and the position behind its closing quote. -/
def scanText (start : Nat) : Nat → List Char → Except Fault (List Nat × Nat)
  | _, [] => .error ⟨.unterminated, start⟩
  | _, ['\\'] => .error ⟨.unterminated, start⟩
  | position, '\\' :: 'u' :: a :: b :: c :: d :: e :: cs =>
    match hexNumber? [a, b, c, d] with
    | none => .error ⟨.unicodeEscape, position + 1⟩
    | some n => do
      let (ns, stop) ← scanText start (position + 6) (e :: cs)
      pure (n :: ns, stop)
  | position, '\\' :: c :: cs =>
    if c = 'u' then .error ⟨.unicodeEscape, position + 1⟩
    else match escaped? c with
    | none => .error ⟨.escape, position⟩
    | some d => do
      let (ns, stop) ← scanText start (position + 2) cs
      pure (d.toNat :: ns, stop)
  | position, c :: cs =>
    if c = '\x22' then .ok ([], position + 1)
    else if c.toNat < 0x20 then .error ⟨.control, position⟩
    else do
      let (ns, stop) ← scanText start (position + 1) cs
      pure (c.toNat :: ns, stop)

/-- The characters of code units: a high and a low surrogate together make one. -/
def joinUnits : List Nat → List Char
  | [] => []
  | [n] => [Char.ofNat n]
  | m :: n :: ns =>
    if 0xD800 ≤ m ∧ m < 0xDC00 ∧ 0xDC00 ≤ n ∧ n < 0xE000 then
      Char.ofNat (0x10000 + (m - 0xD800) * 0x400 + (n - 0xDC00)) :: joinUnits ns
    else Char.ofNat m :: joinUnits (n :: ns)

/-- The natural number of some decimal digits. -/
def decimalNumber (cs : List Char) : Nat := cs.foldl (fun n c => 10 * n + (c.toNat - '0'.toNat)) 0

/-- The digits after a point, if there are any. -/
def fraction : List Char → List Char
  | '.' :: cs => cs.takeWhile Char.isDigit
  | _ => []

/-- The exponent of ten and the number of characters it takes, if there is one. -/
def exponent? : List Char → Option (Int × Nat)
  | [] => none
  | e :: cs =>
    if e = 'e' ∨ e = 'E' then
      let signed := cs.head? = some '+' ∨ cs.head? = some '-'
      let ds := (if signed then cs.drop 1 else cs).takeWhile Char.isDigit
      if ds.isEmpty then none
      else
        let n : Int := decimalNumber ds
        some (if cs.head? = some '-' then -n else n, 1 + (if signed then 1 else 0) + ds.length)
    else none

/-- The number at the start of a text, and how many characters it takes. -/
def scanNumber? (cs : List Char) : Option (Token × Nat) :=
  let negative := cs.head? = some '-'
  let unsigned := if negative then cs.drop 1 else cs
  let sign := if negative then 1 else 0
  let whole := if unsigned.head? = some '0' then ['0'] else unsigned.takeWhile Char.isDigit
  if whole.isEmpty then none
  else
    let rest := unsigned.drop whole.length
    let fractional := fraction rest
    let width := if fractional.isEmpty then 0 else fractional.length + 1
    let power := exponent? (rest.drop width)
    if fractional.isEmpty && power.isNone then
      if Numeral.isOversized 10 whole.length then some (.oversized whole.length, sign + whole.length)
      else
        let n : Int := decimalNumber whole
        some (.scalar (.integer (if negative then -n else n)), sign + whole.length)
    else
      let (e, eWidth) := power.getD (0, 0)
      let x := Binary64.ofDecimal negative (decimalNumber (whole ++ fractional)) (e - fractional.length)
      some (.scalar (.number x), sign + whole.length + width + eWidth)

/-- The words that stand for scalars. -/
def words (dialect : Dialect) : List (List Char × Scalar) :=
  [("null".toList, .null), ("true".toList, .bool true), ("false".toList, .bool false)] ++
    match dialect with
    | .strict =>
      [("NaN".toList, .number .nan), ("Infinity".toList, .number (.infinite false)),
        ("-Infinity".toList, .number (.infinite true))]
    | .relaxed => []

/-- The word at the start of a text. -/
def scanWord? (dialect : Dialect) (cs : List Char) : Option (Scalar × Nat) :=
  (words dialect).findSome? fun w => if w.1.isPrefixOf cs then some (w.2, w.1.length) else none

def isSpace (dialect : Dialect) (c : Char) : Bool :=
  c == ' ' || c == '\t' || c == '\n' || c == '\r' || (dialect == .relaxed && c == '\x0c')

/-- Whether a comment starts here. -/
def startsComment (dialect : Dialect) (cs : List Char) : Bool :=
  dialect == .relaxed && (cs.head? == some '#' || "//".toList.isPrefixOf cs)

/-- The brackets and separators. -/
def mark? (c : Char) : Option Token :=
  if c = '\x7b' then some .openMapping
  else if c = '\x7d' then some .closeMapping
  else if c = '[' then some .openList
  else if c = ']' then some .closeList
  else if c = ':' then some .colon
  else if c = ',' then some .comma
  else none

/-- The token at the start of a text and how many characters it takes. -/
def scanToken (dialect : Dialect) (position : Nat) (cs : List Char) : Token × Nat :=
  match cs with
  | [] => (.finish, 0)
  | c :: rest =>
    match mark? c with
    | some t => (t, 1)
    | none =>
      if c = '\x22' then
        match scanText position (position + 1) rest with
        | .ok (ns, stop) => (.text (String.ofList (joinUnits ns)), stop - position)
        | .error f => (.badText f, 1)
      else match scanWord? dialect cs with
      | some (s, n) => (.scalar s, n)
      | none => (scanNumber? cs).getD (.other, 1)

def Token.isBad : Token → Bool
  | .badText _ => true
  | .oversized _ => true
  | .other => true
  | _ => false

/-- The tokens of a text from a position on. The last one is the end of the text or a token gone wrong. -/
def tokensFrom (dialect : Dialect) (position : Nat) (cs : List Char) : List Placed :=
  match cs with
  | [] => [⟨.finish, position⟩]
  | c :: rest =>
    if isSpace dialect c then tokensFrom dialect (position + 1) rest
    else if startsComment dialect (c :: rest) then
      let n := (rest.takeWhile (· ≠ '\n')).length
      tokensFrom dialect (position + 1 + n) (rest.drop n)
    else
      let (t, n) := scanToken dialect position (c :: rest)
      if t.isBad then [⟨t, position⟩]
      else ⟨t, position⟩ :: tokensFrom dialect (position + 1 + (n - 1)) (rest.drop (n - 1))
termination_by cs.length
decreasing_by all_goals simp +arith

end ProgramFacts.Json
