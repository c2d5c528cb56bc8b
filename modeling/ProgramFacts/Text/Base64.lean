/-!
# Bytes written in sixty-four characters

Four characters of the alphabet carry three bytes. Characters outside the alphabet are passed over, and equals
signs end the text once they fill up the last four.
-/

namespace ProgramFacts.Text

/-- The six bits that a character of the alphabet carries. -/
def sextet? (c : Char) : Option Nat :=
  if 'A' ≤ c ∧ c ≤ 'Z' then some (c.toNat - 'A'.toNat)
  else if 'a' ≤ c ∧ c ≤ 'z' then some (c.toNat - 'a'.toNat + 26)
  else if '0' ≤ c ∧ c ≤ '9' then some (c.toNat - '0'.toNat + 52)
  else if c = '+' then some 62
  else if c = '/' then some 63
  else none

/-- Where the decoding of a text stands. -/
structure SextetState where
  /-- How many of the current four characters have been met. -/
  met : Nat := 0
  /-- How many equals signs have followed them. -/
  pads : Nat := 0
  /-- The bits that have not filled a byte yet. -/
  bits : Nat := 0

/-- The state after a character of the alphabet, and the byte that it completes. -/
def SextetState.step (s : SextetState) (v : Nat) : SextetState × Option UInt8 :=
  match s.met with
  | 0 => ({ met := 1, bits := v }, none)
  | 1 => ({ met := 2, bits := v % 16 }, some (s.bits * 4 + v / 16).toUInt8)
  | 2 => ({ met := 3, bits := v % 4 }, some (s.bits * 16 + v / 4).toUInt8)
  | _ => ({}, some (s.bits * 64 + v).toUInt8)

/-- The bytes of a text from a state on; nothing if the last four characters are not complete. -/
def base64From (s : SextetState) : List Char → Option (List UInt8)
  | [] => if s.met = 0 then some [] else none
  | c :: cs =>
    if c = '=' then
      if s.met < 2 then base64From s cs
      else if 4 ≤ s.met + s.pads + 1 then some []
      else base64From { s with pads := s.pads + 1 } cs
    else match sextet? c with
      | none => base64From s cs
      | some v =>
        let (after, byte) := s.step v
        (base64From after cs).map (byte.toList ++ ·)

/-- The bytes that a text carries. -/
def decodeBase64 (cs : List Char) : Option (List UInt8) := base64From {} cs

end ProgramFacts.Text
