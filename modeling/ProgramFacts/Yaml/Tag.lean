/-!
# Tags

The tag of a node says what is to be built from it. A plain scalar without a tag gets one from its text: the
first of the forms below that the text has, or that of a text. One line break after the form does not count.
-/

namespace ProgramFacts.Yaml

inductive Tag
  | null
  | bool
  | integer
  | number
  | text
  | binary
  | timestamp
  | merge
  | equals
  | sequence
  | mapping
  | set
  /-- A list of pairs; two tags stand for it. -/
  | pairs
  /-- A tag that nothing can be built for. -/
  | unknown
deriving DecidableEq

/-- What the tags of this format begin with. -/
def Tag.start : String := "tag:yaml.org,2002:"

def Tag.ofName (name : String) : Tag :=
  if name = start ++ "null" then .null
  else if name = start ++ "bool" then .bool
  else if name = start ++ "int" then .integer
  else if name = start ++ "float" then .number
  else if name = start ++ "str" then .text
  else if name = start ++ "binary" then .binary
  else if name = start ++ "timestamp" then .timestamp
  else if name = start ++ "merge" then .merge
  else if name = start ++ "value" then .equals
  else if name = start ++ "seq" then .sequence
  else if name = start ++ "map" then .mapping
  else if name = start ++ "set" then .set
  else if name = start ++ "omap" then .pairs
  else if name = start ++ "pairs" then .pairs
  else .unknown

/-! ## Forms of plain scalars -/

def truthWords : List (String × Bool) :=
  [("yes", true), ("no", false), ("true", true), ("false", false), ("on", true), ("off", false)]

/-- The word as it is, with a capital, and in capitals. -/
def spellings (word : String) : List (List Char) :=
  let cs := word.toList
  [cs, cs.take 1 |>.map Char.toUpper |>.append (cs.drop 1), cs.map Char.toUpper]

def isTruth (cs : List Char) : Bool := truthWords.any fun w => (spellings w.1).contains cs

def isNull (cs : List Char) : Bool := cs.isEmpty || cs == ['~'] || (spellings "null").contains cs

/-- The text without a sign. -/
def unsigned (cs : List Char) : List Char := if cs.head? = some '-' ∨ cs.head? = some '+' then cs.drop 1 else cs

def isDigitOrLow (c : Char) : Bool := c.isDigit || c == '_'

/-- A digit, then digits and underscores. -/
def isDigits (cs : List Char) : Bool := cs.head?.any Char.isDigit && cs.all isDigitOrLow

/-- An exponent with its sign, or nothing. -/
def isExponent : List Char → Bool
  | [] => true
  | e :: s :: cs => (e == 'e' || e == 'E') && (s == '-' || s == '+') && !cs.isEmpty && cs.all Char.isDigit
  | _ => false

/-- A number below sixty, of one or two digits. -/
def isSixtieth : List Char → Bool
  | [d] => d.isDigit
  | [t, d] => '0' ≤ t && t ≤ '5' && d.isDigit
  | _ => false

/-- The text before the first of a character, and the text after it. -/
def cut (mark : Char) (cs : List Char) : List Char × Option (List Char) :=
  let before := cs.takeWhile (· ≠ mark)
  match cs.drop before.length with
  | [] => (before, none)
  | _ :: after => (before, some after)

/-- The pieces between the colons. -/
def colonPieces : List Char → List (List Char)
  | [] => [[]]
  | c :: cs =>
    if c = ':' then [] :: colonPieces cs
    else match colonPieces cs with
      | [] => [[c]]
      | p :: ps => (c :: p) :: ps

/-- Digits with a point, or sixtieths with a point in the last one, or a word for infinity or for none. -/
def isNumber (cs : List Char) : Bool :=
  let abs := unsigned cs
  let isFraction (after : List Char) : Bool := isExponent (after.dropWhile isDigitOrLow)
  let positional := match cut '.' abs with
    | (whole, some after) => isDigits whole && isFraction after
    | _ => false
  let pointed := match cs with
    | '.' :: d :: rest => d.isDigit && isFraction rest
    | _ => false
  let sexagesimal := match cut '.' abs with
    | (whole, some after) =>
      after.all isDigitOrLow && match colonPieces whole with
        | first :: p :: ps => isDigits first && (p :: ps).all isSixtieth
        | _ => false
    | _ => false
  let infinite := match abs with
    | '.' :: word => (spellings "inf").contains word
    | _ => false
  let none := match cs with
    | '.' :: word => ["nan".toList, "NaN".toList, "NAN".toList].contains word
    | _ => false
  positional || pointed || sexagesimal || infinite || none

def isHexDigit (c : Char) : Bool := c.isDigit || ('a' ≤ c && c ≤ 'f') || ('A' ≤ c && c ≤ 'F')

/-- Binary, octal, decimal, hexadecimal, or by sixties. -/
def isInteger (cs : List Char) : Bool :=
  match unsigned cs with
  | ['0'] => true
  | '0' :: 'b' :: c :: rest => (c :: rest).all fun d => d == '0' || d == '1' || d == '_'
  | '0' :: 'x' :: c :: rest => (c :: rest).all fun d => isHexDigit d || d == '_'
  | '0' :: rest => rest.all fun d => ('0' ≤ d && d ≤ '7') || d == '_'
  | abs =>
    match colonPieces abs with
    | first :: ps => isDigits first && ps.all isSixtieth
    | [] => false

/-- The parts of a date, and of the time of day if there is one; the offset is a sign, hours and minutes, or
nothing for universal time. -/
structure Timestamp where
  year : List Char
  month : List Char
  day : List Char
  time : Option (List Char × List Char × List Char × List Char × Option (Option (Bool × List Char × List Char)))

/-- The one or two digits at the start of a text, and the rest. -/
def takeTwo (cs : List Char) : Option (List Char × List Char) :=
  let ds := (cs.take 2).takeWhile Char.isDigit
  if ds.isEmpty then none else some (ds, cs.drop ds.length)

/-- So many digits at the start of a text, and the rest. -/
def takeExactly (n : Nat) (cs : List Char) : Option (List Char × List Char) :=
  let ds := (cs.take n).takeWhile Char.isDigit
  if ds.length = n then some (ds, cs.drop n) else none

/-- The rest after a given character. -/
def after? (c : Char) : List Char → Option (List Char)
  | [] => none
  | d :: cs => if c = d then some cs else none

def isTimeBlank (c : Char) : Bool := c == ' ' || c == '\t'

/-- The zone that ends a timestamp: nothing, universal time, or an offset. -/
def zone? (cs : List Char) : Option (Option (Option (Bool × List Char × List Char))) :=
  if cs.isEmpty then some none
  else
    let rest := cs.dropWhile isTimeBlank
    match rest with
    | ['Z'] => some (some none)
    | s :: rest =>
      if s = '-' ∨ s = '+' then do
        let (hours, rest) ← takeTwo rest
        if rest.isEmpty then some (some (some (s == '-', hours, [])))
        else do
          let rest ← after? ':' rest
          let (minutes, rest) ← takeExactly 2 rest
          if rest.isEmpty then some (some (some (s == '-', hours, minutes))) else none
      else none
    | [] => none

/-- The time of day after a date. -/
def time? (cs : List Char) :
    Option (List Char × List Char × List Char × List Char × Option (Option (Bool × List Char × List Char))) := do
  let rest ← match cs with
    | [] => none
    | c :: rest =>
      if c = 'T' ∨ c = 't' then some rest
      else if isTimeBlank c then some (rest.dropWhile isTimeBlank)
      else none
  let (hour, rest) ← takeTwo rest
  let rest ← after? ':' rest
  let (minute, rest) ← takeExactly 2 rest
  let rest ← after? ':' rest
  let (second, rest) ← takeExactly 2 rest
  let (fraction, rest) := match rest with
    | '.' :: cs => (cs.takeWhile Char.isDigit, cs.dropWhile Char.isDigit)
    | cs => ([], cs)
  let zone ← zone? rest
  pure (hour, minute, second, fraction, zone)

/-- The parts of a timestamp. -/
def timestamp? (cs : List Char) : Option Timestamp := do
  let (year, rest) ← takeExactly 4 cs
  let rest ← after? '-' rest
  let (month, rest) ← takeTwo rest
  let rest ← after? '-' rest
  let (day, rest) ← takeTwo rest
  if rest.isEmpty then pure ⟨year, month, day, none⟩
  else do
    let time ← time? rest
    pure ⟨year, month, day, some time⟩

/-- Whether a plain scalar is taken for a timestamp: a date alone has two digits for month and day. -/
def isTimestamp (cs : List Char) : Bool :=
  match timestamp? cs with
  | none => false
  | some t => t.time.isSome || (t.month.length == 2 && t.day.length == 2)

/-- The text without the line break that ends it. -/
def withoutBreak (cs : List Char) : List Char := if cs.getLast? = some '\n' then cs.dropLast else cs

/-- The tag that the text of a plain scalar gives it. A line break alone is a text. -/
def Tag.ofPlain (s : String) : Tag :=
  let cs := withoutBreak s.toList
  if cs.isEmpty && s != "" then .text
  else if isTruth cs then .bool
  else if isNumber cs then .number
  else if isInteger cs then .integer
  else if cs = ['<', '<'] then .merge
  else if isNull cs then .null
  else if isTimestamp cs then .timestamp
  else if cs = ['='] then .equals
  else if cs = ['!'] ∨ cs = ['&'] ∨ cs = ['*'] then .unknown
  else .text

end ProgramFacts.Yaml
