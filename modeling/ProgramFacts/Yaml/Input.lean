import ProgramFacts.Text.Pieces
import ProgramFacts.Yaml.Fault

/-!
# The text of a YAML file

A file is read piece by piece, as far as its reader goes. Bytes are decoded in blocks; a fault among them is
told by its place in the block, of which nothing is decoded then. Characters are handed on in buffers, after a
look at whether a text may hold them; the first two buffers are filled before anything is handed on.
-/

namespace ProgramFacts.Yaml

/-- Whether a text may hold a character. -/
def isAllowed (c : Char) : Bool :=
  c == '\t' || c == '\n' || c == '\r' || c == '\x85' || (' ' ≤ c && c ≤ '~') ||
    (0xA0 ≤ c.toNat && c.toNat ≤ 0xFFFD) || 0x10000 ≤ c.toNat

/-- How many bytes are decoded at a time at least. -/
def blockSize : Nat := 8192

/-- How many characters a buffer holds. -/
def bufferSize : Nat := 4096

/-- How far the bytes of a file have been decoded. -/
structure Decoding where
  /-- The bytes still to be read. -/
  bytes : List UInt8
  /-- The bytes of a character that the end of the last block cut off. -/
  carry : List UInt8 := []
  /-- Whether the last block ended in a carriage return, which a line feed may yet follow. -/
  held : Bool := false
  /-- How many characters there are so far. -/
  count : Nat := 0
  /-- The numbers of bytes and of characters of the last block. -/
  last : Nat × Nat := (0, 0)

namespace Decoding

/-- How many bytes are read next. If characters take as many bytes as in the last block, they fill the buffer
that is being filled. -/
def nextSize (d : Decoding) : Nat :=
  max blockSize ((bufferSize - d.count % bufferSize) * d.last.1 / d.last.2)

/-- The characters with the carriage return that was held back before them, if any, and whether one is to be
held back again. -/
def lines (held : Bool) (cs : List Char) : List Char × Bool :=
  let cs := if held then '\r' :: cs else cs
  if cs.getLast? = some '\r' then (Text.unifyLineEnds cs.dropLast, true) else (Text.unifyLineEnds cs, false)

/-- Whether the bytes from a fault on may yet become right with those of the next block. Half of a pair of
surrogates is looked at as a whole, so it waits for its last byte too. -/
def isCutOff (bytes : List UInt8) (f : Text.Utf8Fault) : Bool :=
  f.problem = .unexpectedEnd ||
    match bytes.drop f.position with
    | [a, b] => a == 0xED && 0xA0 ≤ b && b ≤ 0xBF
    | _ => false

/-- The characters of the blocks before a fault. A character that the end of a block cuts off goes on in the
next one. The fuel is more than the number of blocks. -/
def run : Nat → Decoding → List Char × Option Text.Utf8Fault
  | 0, _ => ([], none)
  | fuel + 1, d =>
    let block := d.bytes.take d.nextSize
    let bytes := d.carry ++ block
    let (cs, fault) := Text.utf8Prefix 0 bytes
    match fault.filter fun f => block.isEmpty || !isCutOff bytes f with
    | some f => ([], some f)
    | none =>
      if block.isEmpty then (if d.held then ['\n'] else [], none)
      else
        let (ls, held) := lines d.held cs
        let (more, fault) := run fuel
          { bytes := d.bytes.drop d.nextSize
            carry := fault.elim [] fun f => bytes.drop f.position
            held
            count := d.count + ls.length
            last := (block.length, ls.length) }
        (ls ++ more, fault)

end Decoding

/-- How many characters are handed on if the buffer that holds a place cannot be. -/
def handedOn (place : Nat) : Nat := if place < 2 * bufferSize then 0 else place / bufferSize * bufferSize

/-- A text that ends where it ends, or at a fault. -/
structure Input where
  text : List Char
  ending : Option Fault := none

namespace Input

/-- The text up to the buffer that a fault keeps from being filled. -/
def cutOff (text : List Char) (f : Fault) : Input := { text := text.take (handedOn text.length), ending := some f }

/-- The text up to the buffer with a character that no text may hold. -/
def check (i : Input) : Input :=
  let allowed := i.text.takeWhile isAllowed
  if allowed.length < i.text.length then cutOff allowed .unreadable else i

/-- The text that bytes spell, line ends of all kinds counting alike. -/
def ofBytes (bytes : List UInt8) : Input :=
  let (text, fault) := Decoding.run (bytes.length + 2) { bytes }
  match fault with
  | none => check { text }
  | some f => check (cutOff text (.encoding f))

end Input

end ProgramFacts.Yaml
