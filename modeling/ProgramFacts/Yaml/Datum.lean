import ProgramFacts.Document
import ProgramFacts.Json.Token
import ProgramFacts.Text.Base64
import ProgramFacts.Text.LetterCase
import ProgramFacts.Yaml.Fault
import ProgramFacts.Yaml.Tag

/-!
# What the scalars of YAML texts stand for
-/

namespace ProgramFacts.Yaml

open Numeral (Binary64 integer binary64?)

def readInteger (base : Nat) (cs : List Char) : Except Fault Int := (integer base cs).mapError .integer

def readNumber (cs : List Char) : Except Fault Binary64 :=
  match binary64? cs with
  | some x => .ok x
  | none => .error (.number (String.ofList cs))

/-- The sum of digits by sixties, the last digit counting ones. -/
def bySixties (ds : List Int) : Int := ds.foldl (fun n d => 60 * n + d) 0

/-- The sum of numbers by sixties, the first of which counts `base`, on top of another sum. Every power of sixty
is rounded, and so is every product and every sum. -/
def sumBySixties (sum : Binary64) (base : Nat) : List Binary64 → Except Fault Binary64
  | [] => .ok sum
  | x :: xs =>
    match Binary64.ofNat? base with
    | some b => sumBySixties (sum.add (x.mul b)) (base * 60) xs
    | none => .error .tooManySixties

/-- An integer without its sign: binary, hexadecimal, octal, by sixties, or decimal. -/
def buildMagnitude (cs : List Char) : Except Fault Int :=
  match cs with
  | ['0'] => .ok 0
  | '0' :: 'b' :: ds => readInteger 2 ds
  | '0' :: 'x' :: ds => readInteger 16 ds
  | [] => .error .noDigits
  | c :: rest =>
    if c = '0' then readInteger 8 (c :: rest)
    else if (c :: rest).contains ':' then bySixties <$> (colonPieces (c :: rest)).mapM (readInteger 10)
    else readInteger 10 (c :: rest)

def buildInteger (text : String) : Except Fault Int := do
  let cs := text.toList.filter (· ≠ '_')
  if cs.isEmpty then .error .noDigits
  else do
    let n ← buildMagnitude (unsigned cs)
    pure (if cs.head? = some '-' then -n else n)

/-- The characters of a number that count. -/
def numberChars (text : String) : List Char := (Text.lower (String.ofList (text.toList.filter (· ≠ '_')))).toList

/-- The word for what is no number. -/
def notNumberWord : List Char := ".nan".toList

/-- Whether a text is the word for what is no number, with or without a sign. -/
def isNotNumberWord (text : String) : Bool := unsigned (numberChars text) == notNumberWord

def buildNumber (text : String) : Except Fault Binary64 := do
  let cs := numberChars text
  if cs.isEmpty then .error .noDigits
  else do
    let abs := unsigned cs
    let x ←
      if abs = ".inf".toList then pure (Binary64.infinite false)
      else if abs = notNumberWord then pure Binary64.nan
      else if abs.contains ':' then do
        let xs ← (colonPieces abs).mapM readNumber
        sumBySixties (Binary64.zero false) 1 xs.reverse
      else readNumber abs
    pure (x.withSign (cs.head? == some '-'))

/-- The first six digits of a fraction of a second. -/
def microseconds (fraction : List Char) : Nat :=
  Json.decimalNumber ((fraction ++ List.replicate 6 '0').take 6)

def buildTimestamp (text : String) : Except Fault Scalar :=
  match timestamp? (withoutBreak text.toList) with
  | none => .error .moment
  | some t =>
    let date := Date.of (Json.decimalNumber t.year) (Json.decimalNumber t.month) (Json.decimalNumber t.day)
    let built : Except CalendarFault Scalar := match t.time with
      | none => .date <$> date
      | some (hour, minute, second, fraction, zone) =>
        let offset := zone.map fun z => match z with
          | none => (0 : Int)
          | some (west, hours, minutes) =>
            let n : Int := 60 * Json.decimalNumber hours + Json.decimalNumber minutes
            if west then -n else n
        .moment <$> Moment.of date (Json.decimalNumber hour) (Json.decimalNumber minute)
          (Json.decimalNumber second) (microseconds fraction) offset
    built.mapError .calendar

/-- Bytes are written in characters of ASCII. -/
def buildBinary (text : String) : Except Fault (List UInt8) :=
  if text.toList.all (·.toNat < 0x80) then
    match Text.decodeBase64 text.toList with
    | some bytes => .ok bytes
    | none => .error .unreadable
  else .error .unreadable

def buildScalar (tag : Tag) (text : String) : Except Fault Scalar :=
  match tag with
  | .null => .ok .null
  | .bool =>
    match truthWords.lookup (Text.lower text) with
    | some b => .ok (.bool b)
    | none => .error (.truth (Text.lower text))
  | .integer => .integer <$> buildInteger text
  | .number => .number <$> buildNumber text
  | .text => .ok (.text text)
  | .binary => .binary <$> buildBinary text
  | .timestamp => buildTimestamp text
  | _ => .error .unreadable

end ProgramFacts.Yaml
