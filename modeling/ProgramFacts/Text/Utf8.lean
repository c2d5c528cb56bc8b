/-!
# Texts from bytes

Bytes are read as UTF-8. The first sequence that is none is refused with its place: a byte that starts no
character, a character broken off by a byte that cannot continue it, or one cut off by the end.
-/

namespace ProgramFacts.Text

/-- Why a sequence of bytes is no character. -/
inductive Utf8Problem
  | invalidStart
  | invalidContinuation
  | unexpectedEnd
deriving DecidableEq

/-- The bytes at `position` (at least one) start no character. -/
structure Utf8Fault where
  position : Nat
  bytes : List UInt8
  problem : Utf8Problem
deriving DecidableEq

def Utf8Problem.message : Utf8Problem → String
  | .invalidStart => "invalid start byte"
  | .invalidContinuation => "invalid continuation byte"
  | .unexpectedEnd => "unexpected end of data"

/-- The refused bytes and why they are refused. -/
def Utf8Fault.message (f : Utf8Fault) : String :=
  let place := match f.bytes with
    | [b] => "byte 0x" ++ String.ofList ((Nat.toDigits 16 b.toNat).leftpad 2 '0') ++ " in position "
        ++ toString f.position
    | bs => "bytes in position " ++ toString f.position ++ "-" ++ toString (f.position + bs.length - 1)
  "'utf-8' codec can't decode " ++ place ++ ": " ++ f.problem.message

/-- The closed range of the second byte after a first byte, and how many bytes follow in all. -/
def utf8Follow? (first : UInt8) : Option (UInt8 × UInt8 × Nat) :=
  if first < 0xC2 then none
  else if first < 0xE0 then some (0x80, 0xBF, 1)
  else if first = 0xE0 then some (0xA0, 0xBF, 2)
  else if first = 0xED then some (0x80, 0x9F, 2)
  else if first < 0xF0 then some (0x80, 0xBF, 2)
  else if first = 0xF0 then some (0x90, 0xBF, 3)
  else if first < 0xF4 then some (0x80, 0xBF, 3)
  else if first = 0xF4 then some (0x80, 0x8F, 3)
  else none

/-- Reads the `count` bytes that continue a character, the next one between `low` and `high`. -/
def utf8Continue (low high : UInt8) : Nat → List UInt8 → Nat → Except (Utf8Problem × Nat) Nat
  | 0, _, value => .ok value
  | _ + 1, [], _ => .error (.unexpectedEnd, 0)
  | n + 1, b :: bs, value =>
    if low ≤ b ∧ b ≤ high then
      match utf8Continue 0x80 0xBF n bs (value * 0x40 + (b.toNat - 0x80)) with
      | .ok v => .ok v
      | .error (p, taken) => .error (p, taken + 1)
    else .error (.invalidContinuation, 0)

/-- The bits of a first byte that belong to the code point, by how many bytes follow. -/
def utf8Lead (first : UInt8) (following : Nat) : Nat :=
  match following with
  | 1 => first.toNat - 0xC0
  | 2 => first.toNat - 0xE0
  | _ => first.toNat - 0xF0

/-- The characters that bytes from `position` on spell, up to the first sequence that is none. -/
def utf8Prefix (position : Nat) : List UInt8 → List Char × Option Utf8Fault
  | [] => ([], none)
  | b :: bs =>
    if b < 0x80 then
      let (cs, fault) := utf8Prefix (position + 1) bs
      (Char.ofNat b.toNat :: cs, fault)
    else match utf8Follow? b with
      | none => ([], some ⟨position, [b], .invalidStart⟩)
      | some (low, high, n) =>
        match utf8Continue low high n bs (utf8Lead b n) with
        | .ok v =>
          let (cs, fault) := utf8Prefix (position + n + 1) (bs.drop n)
          (Char.ofNat v :: cs, fault)
        | .error (p, taken) => ([], some ⟨position, b :: bs.take taken, p⟩)
termination_by bs => bs.length

/-- The text that the bytes spell. -/
def decodeUtf8 (bytes : List UInt8) : Except Utf8Fault String :=
  match utf8Prefix 0 bytes with
  | (cs, none) => .ok (String.ofList cs)
  | (_, some f) => .error f

end ProgramFacts.Text
