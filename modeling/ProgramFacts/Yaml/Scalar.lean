import ProgramFacts.Json.Token
import ProgramFacts.Yaml.Cursor

/-!
# Scalars in YAML texts

Block scalars keep or fold their lines, quoted scalars fold them and may hold escapes, plain scalars end at a
comment, at a mark, or where the indentation ends. Each loop goes over lines or pieces and is bounded by the
number of characters of the text.
-/

namespace ProgramFacts.Yaml

open Json (hexNumber?)

/-- What a block scalar says of itself: whether line breaks at its end are all kept or all dropped, and how
far it is indented. -/
structure BlockHeader where
  keep : Option Bool := none
  increment : Option Nat := none

def digit? (c : Char) : Option Nat := if c.isDigit then some (c.toNat - '0'.toNat) else none

/-- The indentation digit, which is not zero. -/
def takeIncrement (c : Cursor) : Except Fault (Option Nat × Cursor) :=
  match c.peek.bind digit? with
  | none => .ok (none, c)
  | some 0 => .error .unreadable
  | some n => .ok (some n, c.next)

def takeKeep (c : Cursor) : Option Bool × Cursor :=
  match c.peek with
  | some '+' => (some true, c.next)
  | some '-' => (some false, c.next)
  | _ => (none, c)

/-- The header of a block scalar, its two marks in either order. -/
def blockHeader (c : Cursor) : Except Fault (BlockHeader × Cursor) := do
  let (keep, c) := takeKeep c
  let (increment, c) ← takeIncrement c
  let (keep, c) := if keep.isNone && increment.isSome then takeKeep c else (keep, c)
  if c.peek = some '\t' || !endsWord c.peek then .error .unreadable
  else do
    let c ← c.finishLine
    pure ({ keep, increment }, c)

/-- Passes blanks, but not beyond a column. -/
def skipIndent (indent : Nat) (c : Cursor) : Cursor :=
  c.advance (((c.rest.takeWhile (· == ' ')).length).min (indent - c.column))

/-- Empty lines, and blanks up to the indentation. -/
def blockBreaks (indent : Nat) : Nat → Cursor → List Char × Cursor
  | 0, c => ([], c)
  | fuel + 1, c =>
    let c := skipIndent indent c
    match c.lineBreak? with
    | none => ([], c)
    | some (b, c) =>
      let (bs, c) := blockBreaks indent fuel c
      (b :: bs, c)

/-- Empty lines before the first line, and the greatest column that their blanks reach. -/
def blockIndentation : Nat → Cursor → List Char × Nat × Cursor
  | 0, c => ([], 0, c)
  | fuel + 1, c =>
    if c.peek = some ' ' then
      let c := c.next
      let (bs, widest, after) := blockIndentation fuel c
      (bs, max c.column widest, after)
    else match c.lineBreak? with
    | none => ([], 0, c)
    | some (b, c) =>
      let (bs, widest, after) := blockIndentation fuel c
      (b :: bs, widest, after)

/-- The lines of a block scalar: their text, the last line break, and the empty lines after them. -/
def blockLines (folded : Bool) (indent : Nat) :
    Nat → List Char → Cursor → List Char × List Char × List Char × Cursor
  | 0, breaks, c => ([], [], breaks, c)
  | fuel + 1, breaks, c =>
    if c.column = indent && !c.rest.isEmpty then
      let flush := !c.peek.any isBlankChar
      let line := c.rest.takeWhile (!isBreak ·)
      let c := c.advance line.length
      let ending := c.lineBreak?.map (·.1)
      let c := c.skipBreak
      let (empty, c) := blockBreaks indent c.size c
      if c.column = indent && !c.rest.isEmpty then
        let glue :=
          if folded && ending == some '\n' && flush && !c.peek.any isBlankChar then
            (if empty.isEmpty then [' '] else [])
          else ending.toList
        let (more, last, after, c) := blockLines folded indent fuel empty c
        (breaks ++ line ++ glue ++ more, last, after, c)
      else (breaks ++ line, ending.toList, empty, c)
    else ([], [], breaks, c)

/-- A block scalar after its mark, in a block indented to `outer`. -/
def blockScalar (folded : Bool) (outer : Int) (c : Cursor) : Except Fault (List Char × Cursor) := do
  let (header, c) ← blockHeader c
  let least := (outer + 1).toNat.max 1
  let (indent, breaks, c) := match header.increment with
    | some n =>
      let indent := least + n - 1
      let (breaks, c) := blockBreaks indent (c.size + 1) c
      (indent, breaks, c)
    | none =>
      let (breaks, widest, c) := blockIndentation c.size c
      (least.max widest, breaks, c)
  let (text, last, empty, c) := blockLines folded indent (c.size + 1) breaks c
  pure (text ++ (if header.keep = some false then [] else last) ++ (if header.keep = some true then empty else []),
    c)

/-- The character of a one-letter escape. -/
def escaped? (c : Char) : Option Char :=
  match c with
  | '0' => some '\x00'
  | 'a' => some '\x07'
  | 'b' => some '\x08'
  | 't' => some '\t'
  | '\t' => some '\t'
  | 'n' => some '\n'
  | 'v' => some '\x0b'
  | 'f' => some '\x0c'
  | 'r' => some '\r'
  | 'e' => some '\x1b'
  | ' ' => some ' '
  | '\x22' => some '\x22'
  | '\\' => some '\\'
  | '/' => some '/'
  | 'N' => some '\x85'
  | '_' => some '\xa0'
  | 'L' => some '\u2028'
  | 'P' => some '\u2029'
  | _ => none

/-- How many hexadecimal digits an escape takes. -/
def escapeWidth? (c : Char) : Option Nat :=
  match c with
  | 'x' => some 2
  | 'u' => some 4
  | 'U' => some 8
  | _ => none

/-- Line breaks within a quoted scalar, with the blanks around them; no line may be a separator of documents. -/
def quotedBreaks : Nat → Cursor → Except Fault (List Char × Cursor)
  | 0, _ => .error .unreadable
  | fuel + 1, c =>
    if c.atSeparator then (c.advance 3).refuse
    else
      let c := c.skip isBlankChar
      match c.lineBreak? with
      | none => .ok ([], c)
      | some (b, c) => do
        let (bs, c) ← quotedBreaks fuel c
        pure (b :: bs, c)

/-- What stands for a line break and the empty lines after it: they alone if there are any, else a blank. -/
def foldBreaks (b : Char) (breaks : List Char) : List Char :=
  if b ≠ '\n' then b :: breaks else if breaks.isEmpty then [' '] else breaks

/-- An escape after its backslash. -/
def escape (c : Cursor) : Except Fault (List Char × Cursor) :=
  match c.peek with
  | none => .error .unfinished
  | some ch =>
    match escaped? ch with
    | some d => .ok ([d], c.next)
    | none =>
      match escapeWidth? ch with
      | some width =>
        let digits := c.rest.drop 1 |>.take width
        match hexNumber? digits with
        | none => .error .unreadable
        | some n =>
          if digits.length < width then .error .unfinished
          else if n < 0x110000 then .ok ([Char.ofNat n], c.advance (width + 1))
          else .error (.codePoint n)
      | none =>
        match c.lineBreak? with
        | some (_, c) => quotedBreaks (c.size + 1) c
        | none => .error .unreadable

/-- A quoted scalar after its opening mark. -/
def quotedText (double : Bool) : Nat → Cursor → Except Fault (List Char × Cursor)
  | 0, _ => .error .unreadable
  | fuel + 1, c =>
    let mark := if double then '\x22' else '\x27'
    match c.peek with
    | none => .error .unfinished
    | some ch =>
      if ch = mark then
        if !double && c.peek 1 == some mark then do
          let (more, d) ← quotedText double fuel (c.advance 2)
          pure (mark :: more, d)
        else .ok ([], c.next)
      else if double && ch == '\\' then do
        let (text, d) ← escape c.next
        let (more, e) ← quotedText double fuel d
        pure (text ++ more, e)
      else if isBlankChar ch || isBreak ch then do
        let blanks := c.rest.takeWhile isBlankChar
        let d := c.advance blanks.length
        match d.lineBreak? with
        | none =>
          let (more, e) ← quotedText double fuel d
          pure (blanks ++ more, e)
        | some (b, d) =>
          let (breaks, e) ← quotedBreaks (d.size + 1) d
          let (more, f) ← quotedText double fuel e
          pure (foldBreaks b breaks ++ more, f)
      else do
        let (more, d) ← quotedText double fuel c.next
        pure (ch :: more, d)

/-- The characters that mark flow collections. -/
def isFlowMark (c : Char) : Bool := c == ',' || c == '[' || c == ']' || c == '\x7b' || c == '\x7d'

/-- How many characters of a plain scalar stand together. -/
def plainLength (flow : Bool) : List Char → Nat
  | [] => 0
  | c :: cs =>
    if isBlankChar c || isBreak c || (c == ':' && (endsWord cs.head? || (flow && cs.head?.any isFlowMark))) ||
        (flow && (c == '?' || isFlowMark c)) then 0
    else plainLength flow cs + 1

/-- Empty lines and indentation within a plain scalar; nothing if a separator of documents follows. -/
def plainBreaks : Nat → Cursor → Option (List Char) × Cursor
  | 0, c => (some [], c)
  | fuel + 1, c =>
    if c.peek = some ' ' then plainBreaks fuel c.next
    else match c.lineBreak? with
    | none => (some [], c)
    | some (b, c) =>
      if c.atSeparator then (none, c)
      else
        let (bs, c) := plainBreaks fuel c
        (bs.map (b :: ·), c)

/-- What may stand between two pieces of a plain scalar; nothing if the scalar ends. The truth value tells
whether a line break was passed. -/
def plainGap (c : Cursor) : List Char × Bool × Cursor :=
  let blanks := c.rest.takeWhile (· == ' ')
  let c := c.advance blanks.length
  match c.lineBreak? with
  | none => (blanks, false, c)
  | some (b, c) =>
    if c.atSeparator then ([], true, c)
    else match plainBreaks (c.size + 1) c with
      | (none, c) => ([], true, c)
      | (some breaks, c) => (foldBreaks b breaks, true, c)

/-- A plain scalar, the gap before its next piece being given. The truth value tells whether a key may follow,
because a new line has begun. -/
def plainText (flow : Bool) (indent : Int) : Nat → List Char → Bool → Cursor → List Char × Bool × Cursor
  | 0, _, newLine, c => ([], newLine, c)
  | fuel + 1, gap, newLine, c =>
    let n := plainLength flow c.rest
    if n = 0 || c.peek == some '#' then ([], newLine, c)
    else
      let piece := c.rest.take n
      let (after, newLine, c) := plainGap (c.advance n)
      if after.isEmpty || c.peek == some '#' || (!flow && decide ((c.column : Int) < indent)) then
        (gap ++ piece, newLine, c)
      else
        let (more, newLine, c) := plainText flow indent fuel after newLine c
        (gap ++ piece ++ more, newLine, c)

end ProgramFacts.Yaml
