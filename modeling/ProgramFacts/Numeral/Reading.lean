import ProgramFacts.Numeral.Binary64
import ProgramFacts.Text.Digits
import ProgramFacts.Text.Pieces
import ProgramFacts.Text.Quoted
import ProgramFacts.Text.Ranges

/-!
# Reading numbers

Numbers written by people: blanks may surround them, single underscores may divide their digits, and the
digits may be those of any script. Integers that would take long to convert between their digits and their
value are refused, in both directions; bases that are powers of two take no time.
-/

namespace ProgramFacts.Numeral

/-- Blanks that may surround a number: all but the four that separate files, groups, records and units. -/
def isPadding (c : Char) : Bool := Text.isBlank c && !(decide ('\x1c' ≤ c) && decide (c ≤ '\x1f'))

/-- The value of a digit, or of a letter that serves as one. -/
def digitOrLetter? (c : Char) : Option Nat :=
  match Text.digitValue? c with
  | some d => some d
  | none =>
    if 'a' ≤ c ∧ c ≤ 'z' then some (c.toNat - 'a'.toNat + 10)
    else if 'A' ≤ c ∧ c ≤ 'Z' then some (c.toNat - 'A'.toNat + 10)
    else none

/-- The digits of a base without the single underscores between them; `ready` says whether an underscore may
come next. -/
def digits? (base : Nat) (ready : Bool) : List Char → Option (List Nat)
  | [] => if ready then some [] else none
  | c :: cs =>
    if c = '_' then (if ready then digits? base false cs else none)
    else match digitOrLetter? c with
      | some d => if d < base then (digits? base true cs).map (d :: ·) else none
      | none => none

def ofDigits (base : Nat) (ds : List Nat) : Nat := ds.foldl (fun n d => base * n + d) 0

/-- Sign and rest. -/
def takeSign : List Char → Bool × List Char
  | '-' :: cs => (true, cs)
  | '+' :: cs => (false, cs)
  | cs => (false, cs)

/-- The letter that may mark a base after a zero. -/
def baseMark? (base : Nat) : Option Char :=
  if base = 2 then some 'b' else if base = 8 then some 'o' else if base = 16 then some 'x' else none

/-- The digits behind the mark of the base, if the mark is there. -/
def dropBaseMark (base : Nat) : List Char → List Char
  | '0' :: m :: cs => if baseMark? base = some m.toLower then (if cs.head? = some '_' then cs.drop 1 else cs)
    else '0' :: m :: cs
  | cs => cs

/-- Integers have at most so many digits where they are read or written. -/
def digitLimit : Nat := 4300

/-- Why a text is no integer. -/
inductive IntegerFault
  /-- It is not written like one in the base. -/
  | literal (base : Nat) (text : String)
  /-- It has too many digits. -/
  | oversized (digits : Nat)
deriving DecidableEq

/-- A quoted text is cut off in messages about integers. -/
def quotedLimit : Nat := 200

def IntegerFault.message : IntegerFault → String
  | .literal base text =>
    "invalid literal for int() with base " ++ toString base ++ ": " ++
      String.ofList ((Text.quoted text).toList.take quotedLimit)
  | .oversized digits =>
    "Exceeds the limit (" ++ toString digitLimit ++ " digits) for integer string conversion: value has " ++
      toString digits ++ " digits; use sys.set_int_max_str_digits() to increase the limit"

/-- The message for an integer with too many digits to be written. -/
def unwritableMessage : String :=
  "Exceeds the limit (" ++ toString digitLimit ++
    " digits) for integer string conversion; use sys.set_int_max_str_digits() to increase the limit"

/-- The least natural that is not written. -/
def writableBound : Nat := Nat.pow 10 digitLimit

/-- Whether an integer has few enough digits to be written. -/
def isWritable (n : Int) : Bool := decide (n.natAbs < writableBound)

/-- Whether so many digits are too many in a base. -/
def isOversized (base digits : Nat) : Bool := (baseMark? base).isNone && decide (digitLimit < digits)

/-- Whether a character may stand among the digits of a base. -/
def isDigitOrBreak (base : Nat) (c : Char) : Bool :=
  c == '_' || match digitOrLetter? c with
    | some d => decide (d < base)
    | none => false

/-- The integer that a text stands for in a base. The digits are looked at before what follows them. -/
def integer (base : Nat) (cs : List Char) : Except IntegerFault Int :=
  let (negative, rest) := takeSign (cs.dropWhile isPadding)
  let body := dropBaseMark base rest
  let literal : IntegerFault := .literal base (String.ofList cs)
  match digits? base false (body.takeWhile (isDigitOrBreak base)) with
  | none => .error literal
  | some ds =>
    if isOversized base ds.length then .error (.oversized ds.length)
    else if (body.dropWhile (isDigitOrBreak base)).all isPadding then
      .ok (if negative then -(ofDigits base ds : Int) else ofDigits base ds)
    else .error literal

/-- The decimal digits at the start of a text, divided by single underscores, and the rest. -/
def spanDigits : List Char → List Nat × List Char
  | [] => ([], [])
  | c :: cs =>
    match Text.digitValue? c with
    | some d =>
      let (ds, rest) := spanDigits cs
      (d :: ds, rest)
    | none => ([], c :: cs)

/-- The exponent that ends a decimal: nothing, or a mark with an integer. -/
def decimalExponent? : List Char → Option Int
  | [] => some 0
  | e :: cs =>
    if e = 'e' ∨ e = 'E' then
      let (negative, rest) := takeSign cs
      match spanDigits rest with
      | ([], _) => none
      | (ds, []) => some (if negative then -(ofDigits 10 ds : Int) else ofDigits 10 ds)
      | _ => none
    else none

/-- The words for numbers that have no digits. -/
def wordNumber? (cs : List Char) : Option Binary64 :=
  let word := String.ofList (cs.map Char.toLower)
  if word = "inf" ∨ word = "infinity" then some (.infinite false)
  else if word = "nan" then some .nan
  else none

/-- The binary64 number nearest to the decimal that a text without underscores stands for. -/
def binary64? (cs : List Char) : Option Binary64 :=
  let (negative, rest) := takeSign (Text.trim isPadding cs)
  match wordNumber? rest with
  | some x => some (x.withSign negative)
  | none =>
    let (whole, rest) := spanDigits rest
    let (fractional, rest) := match rest with
      | '.' :: cs => spanDigits cs
      | cs => ([], cs)
    if whole.isEmpty && fractional.isEmpty then none
    else (decimalExponent? rest).map fun e =>
      Binary64.ofDecimal negative (ofDigits 10 (whole ++ fractional)) (e - fractional.length)

end ProgramFacts.Numeral
