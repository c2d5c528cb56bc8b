import ProgramFacts.Numeral.Reading

/-!
# Faults of encoding
-/

namespace ProgramFacts

/-- Why a part of a declaration has no term. -/
inductive EncodeFault
  /-- The documentation is no text, but of the kind named. -/
  | notText (kind : String)
  /-- The documentation is a date, or a moment. -/
  | calendar
  /-- The documentation is made of bytes. -/
  | binary
  /-- An integer with too many digits is to be written, as a value or in a message. -/
  | oversized
  /-- Something of the kind named has not got what was looked for in it. -/
  | lacks (kind wanted : String)
  /-- Something of the kind named stands in a place for several. -/
  | notSeveral (kind : String)
  /-- Something of the kind named stands in the place of a pair. -/
  | notPair (kind : String)
  /-- So many things stand in the place of a pair. -/
  | notTwo (count : Nat)
deriving DecidableEq

def EncodeFault.message : EncodeFault → String
  | .notText kind => "'" ++ kind ++ "' object has no attribute 'replace'"
  | .calendar => "'str' object cannot be interpreted as an integer"
  | .binary => "a bytes-like object is required, not 'str'"
  | .oversized => Numeral.unwritableMessage
  | .lacks kind wanted => "'" ++ kind ++ "' object has no attribute '" ++ wanted ++ "'"
  | .notSeveral kind => "'" ++ kind ++ "' object is not iterable"
  | .notPair kind => "cannot unpack non-iterable " ++ kind ++ " object"
  | .notTwo count =>
    if count < 2 then "not enough values to unpack (expected 2, got " ++ toString count ++ ")"
    else "too many values to unpack (expected 2)"

/-- The text that there is; there is none of an integer with too many digits. -/
def textOrOversized : Option String → Except EncodeFault String
  | some text => .ok text
  | none => .error .oversized

end ProgramFacts
