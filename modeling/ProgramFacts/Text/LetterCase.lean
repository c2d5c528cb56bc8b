import ProgramFacts.Text.LetterCase.Shifts
import ProgramFacts.Text.LetterCase.Context

/-!
# Lower and upper case of a text

Every letter is mapped on its own, some to a sequence of characters, except that a capital sigma at the
end of a word becomes the final form. ASCII letters need no look-up.
-/

namespace ProgramFacts.Text

/-- The other case of one code point: a sequence if the letter has one, else the image of a run, else itself. -/
def otherCase (sequences : List (Nat × List Nat)) (runs : List CaseRun) (c : Char) : List Char :=
  match sequences.find? (·.1 == c.toNat) with
  | some (_, ns) => ns.map Char.ofNat
  | none => [Char.ofNat ((imageIn runs c.toNat).getD c.toNat)]

/-- The lower case of a letter on its own. -/
def lowerChar (c : Char) : List Char :=
  if c.toNat < 0x80 then [c.toLower] else otherCase lowerSequences lowerRuns c

/-- The upper case of a letter on its own. -/
def upperChar (c : Char) : List Char :=
  if c.toNat < 0x80 then [c.toUpper] else otherCase upperSequences upperRuns c

/-- Whether the first character that case rules do not look through is a letter with case. -/
def facesCased (cs : List Char) : Bool :=
  match cs.find? (fun c => !isCaseIgnorable c) with
  | some c => isCased c
  | none => false

def capitalSigma : Char := Char.ofNat 0x3A3

/-- The lower case of a capital sigma after `before` (nearest first) and in front of `after`. -/
def lowerSigma (before after : List Char) : Char :=
  if facesCased before && !facesCased after then Char.ofNat 0x3C2 else Char.ofNat 0x3C3

/-- The lower case of a text whose earlier characters, nearest first, are `before`. -/
def lowerFrom (before : List Char) : List Char → List Char
  | [] => []
  | c :: cs =>
    (if c = capitalSigma then [lowerSigma before cs] else lowerChar c) ++ lowerFrom (c :: before) cs

/-- The text in lower case. -/
def lower (s : String) : String := String.ofList (lowerFrom [] s.toList)

/-- The text in upper case. -/
def upper (s : String) : String := String.ofList (s.toList.flatMap upperChar)

end ProgramFacts.Text
