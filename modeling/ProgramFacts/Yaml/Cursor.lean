import ProgramFacts.Yaml.Fault

/-!
# Places in a YAML text

A cursor is what is left of a text together with the line and the column where that begins.
-/

namespace ProgramFacts.Yaml

/-- A place in a text and what follows it. -/
structure Cursor where
  rest : List Char
  /-- How many characters the whole text has, which bounds every loop over what is left of it. -/
  size : Nat
  index : Nat := 0
  line : Nat := 0
  column : Nat := 0

def isBreak (c : Char) : Bool :=
  c == '\n' || c == '\r' || c == '\x85' || c == '\u2028' || c == '\u2029'

def isBlankChar (c : Char) : Bool := c == ' ' || c == '\t'

/-- Whether a word cannot go on: at the end of the text, a blank or a line break. -/
def endsWord : Option Char → Bool
  | none => true
  | some c => isBlankChar c || isBreak c

/-- Whether a line ends: at the end of the text or a line break. -/
def endsLine : Option Char → Bool
  | none => true
  | some c => isBreak c

/-- The mark that may begin a text and takes no column. -/
def byteOrderMark : Char := '\ufeff'

namespace Cursor

def peek (c : Cursor) (n : Nat := 0) : Option Char := c.rest[n]?

def next (c : Cursor) : Cursor :=
  match c.rest with
  | [] => c
  | ch :: cs =>
    if isBreak ch then { c with rest := cs, index := c.index + 1, line := c.line + 1, column := 0 }
    else { c with rest := cs, index := c.index + 1,
                  column := if ch = byteOrderMark then c.column else c.column + 1 }

def advance : Nat → Cursor → Cursor
  | 0, c => c
  | n + 1, c => advance n c.next

/-- Passes the characters of a class. -/
def skip (p : Char → Bool) (c : Cursor) : Cursor := c.advance (c.rest.takeWhile p).length

/-- Passes to the end of the line. -/
def skipLine (c : Cursor) : Cursor := c.skip (!isBreak ·)

/-- Passes a line break and gives the character that stands for it. -/
def lineBreak? (c : Cursor) : Option (Char × Cursor) :=
  match c.rest with
  | [] => none
  | ch :: _ =>
    if ch = '\u2028' ∨ ch = '\u2029' then some (ch, c.next)
    else if isBreak ch then some ('\n', c.next)
    else none

/-- Passes a line break if there is one. -/
def skipBreak (c : Cursor) : Cursor :=
  match c.lineBreak? with
  | some (_, d) => d
  | none => c

/-- Refuses what stands here. At the end of the text more may have been meant to follow. -/
def refuse {α : Type} (c : Cursor) : Except Fault α :=
  .error (if c.rest.isEmpty then .unfinished else .unreadable)

/-- Whether a mark that divides documents stands here. -/
def atSeparator (c : Cursor) : Bool :=
  ("---".toList.isPrefixOf c.rest || "...".toList.isPrefixOf c.rest) && endsWord (c.peek 3)

/-- Passes blanks and a comment up to the end of the line. -/
def finishLine (c : Cursor) : Except Fault Cursor :=
  let c := c.skip (· == ' ')
  let c := if c.peek = some '#' then c.skipLine else c
  if endsLine c.peek then .ok c.skipBreak else .error .unreadable

end Cursor

end ProgramFacts.Yaml
