import ProgramFacts.Text.Utf8
import ProgramFacts.Yaml.Scalar
import ProgramFacts.Yaml.Token

/-!
# Cutting YAML texts into tokens

Blocks are delimited by indentation, so the scan keeps the columns at which the open blocks began. A scalar
or a collection turns out to be a key only when the colon after it is met; until then the scan keeps where it
began, and puts the token for the key there. So the tokens from the first possible key on are not handed on
yet, and a fault that comes first is all that a reader sees of them.
-/

namespace ProgramFacts.Yaml

/-- Where something began that may turn out to be a key. -/
structure PossibleKey where
  /-- The number of tokens before it. -/
  number : Nat
  /-- Whether the block's indentation makes it one. -/
  required : Bool
  index : Nat
  line : Nat
  column : Nat

/-- A scan in progress. -/
structure Scan where
  cursor : Cursor
  /-- What stands where the text ends, if that is not its true end. -/
  ending : Option Fault := none
  /-- How many flow collections are open. -/
  flow : Nat := 0
  /-- The column of the innermost block. -/
  indent : Int := -1
  /-- The columns of the blocks around it. -/
  outer : List Int := []
  /-- The tokens so far, last first. -/
  tokens : List Token := []
  /-- How many tokens there are. -/
  count : Nat := 0
  /-- Whether a key may begin here. -/
  allowKey : Bool := true
  /-- The possible key of each flow collection, and of the block around them, innermost first. -/
  keys : List (Option PossibleKey) := [none]

namespace Scan

def push (s : Scan) (t : Token) : Scan := { s with tokens := t :: s.tokens, count := s.count + 1 }

/-- Puts a token before all but the first `number` tokens. -/
def insert (s : Scan) (number : Nat) (t : Token) : Scan :=
  let later := s.count - number
  { s with tokens := s.tokens.take later ++ t :: s.tokens.drop later, count := s.count + 1 }

def key? (s : Scan) : Option PossibleKey := s.keys.head?.join

def setKey (s : Scan) (k : Option PossibleKey) : Scan := { s with keys := k :: s.keys.drop 1 }

/-- Gives up the possible key of the innermost collection. -/
def dropKey (s : Scan) : Except Fault Scan :=
  if s.key?.any (·.required) then .error .unreadable else .ok (s.setKey none)

/-- Notes that a key may begin here. -/
def saveKey (s : Scan) : Except Fault Scan :=
  if s.allowKey then do
    let s ← s.dropKey
    pure (s.setKey (some { number := s.count
                           required := s.flow == 0 && s.indent == (s.cursor.column : Int)
                           index := s.cursor.index
                           line := s.cursor.line
                           column := s.cursor.column }))
  else .ok s

/-- Whether a key that began there can no longer end here: it must stay on its line and be short. -/
def isStale (c : Cursor) (k : PossibleKey) : Bool := k.line != c.line || decide (k.index + 1024 < c.index)

/-- Gives up the possible keys that can no longer be keys. -/
def dropStale (s : Scan) : Except Fault Scan :=
  if s.keys.any fun k => k.any fun k => isStale s.cursor k && k.required then .error .unreadable
  else .ok { s with keys := s.keys.map fun k => k.filter (!isStale s.cursor ·) }

/-- The columns that are left when the blocks indented further than a column are closed, and how many are. -/
def closeBlocks (column : Int) : List Int → Int → List Int × Int × Nat
  | [], indent => ([], indent, 0)
  | i :: is, indent =>
    if column < indent then
      let (outer, inner, closed) := closeBlocks column is i
      (outer, inner, closed + 1)
    else (i :: is, indent, 0)

/-- Closes the blocks that end at a column; in a flow collection there is no indentation. -/
def unwind (s : Scan) (column : Int) : Scan :=
  if s.flow = 0 then
    let (outer, indent, closed) := closeBlocks column s.outer s.indent
    { s with outer, indent, tokens := List.replicate closed .blockEnd ++ s.tokens, count := s.count + closed }
  else s

/-- Opens a block at a column if that is further in than the innermost one. -/
def addIndent (s : Scan) (column : Nat) : Option Scan :=
  if s.indent < (column : Int) then some { s with indent := column, outer := s.indent :: s.outer } else none

def move (s : Scan) (c : Cursor) : Scan := { s with cursor := c }

def forward (s : Scan) (n : Nat) : Scan := s.move (s.cursor.advance n)

/-- How many characters stand before the next token, and whether a line break is among them. -/
def gap (comment : Bool) : List Char → Nat × Bool
  | [] => (0, false)
  | c :: cs =>
    if isBreak c then ((gap false cs).1 + 1, true)
    else if comment || c == ' ' then
      let (n, broken) := gap comment cs
      (n + 1, broken)
    else if c = '#' then
      let (n, broken) := gap true cs
      (n + 1, broken)
    else (0, false)

/-- Passes blanks, comments and line breaks. After a line break a key may begin, outside of flow collections. -/
def toNextToken (s : Scan) : Scan :=
  let c := if s.cursor.index = 0 && s.cursor.peek == some byteOrderMark then s.cursor.next else s.cursor
  let (n, broken) := gap false c.rest
  { s with cursor := c.advance n, allowKey := s.allowKey || (broken && s.flow == 0) }

/-- The token of a single mark at the cursor. -/
def mark (s : Scan) (t : Token) : Scan := (s.push t).forward 1

/-! ## Names and tags -/

def isNameChar (c : Char) : Bool := c.isAlphanum || c == '-' || c == '_'

/-- The name at the cursor. -/
def takeName (c : Cursor) : Except Fault (String × Cursor) :=
  let name := c.rest.takeWhile isNameChar
  if name.isEmpty then c.refuse else .ok (String.ofList name, c.advance name.length)

/-- The name of an anchor or of an alias, after its mark. -/
def takeAnchor (c : Cursor) : Except Fault (String × Cursor) := do
  let (name, c) ← takeName c
  if endsWord c.peek || c.peek.any ("?:,]\x7d%@\x60".toList.contains ·) then pure (name, c)
  else .error .unreadable

def isUriChar (c : Char) : Bool := c.isAlphanum || "-;/?:@&=+$,_.!~*'()[]".toList.contains c

/-- The bytes of escapes in a tag. -/
def uriBytes : List Char → Except Fault (List UInt8 × List Char)
  | '%' :: a :: b :: cs => do
    match Json.hexNumber? [a, b] with
    | none => .error .unreadable
    | some n =>
      let (bytes, rest) ← uriBytes cs
      pure (n.toUInt8 :: bytes, rest)
  | '%' :: cs => .error (if (Json.hexNumber? cs).isSome then .unfinished else .unreadable)
  | cs => .ok ([], cs)

/-- The characters of a tag up to one that cannot be in it, and how many there are. -/
def uriText : Nat → List Char → Except Fault (List Char × Nat)
  | 0, _ => .ok ([], 0)
  | fuel + 1, cs =>
    match cs with
    | [] => .ok ([], 0)
    | c :: rest =>
      if c = '%' then do
        let (bytes, after) ← uriBytes cs
        match Text.decodeUtf8 bytes with
        | .error _ => .error (if after.isEmpty then .unfinished else .unreadable)
        | .ok text =>
          let (more, n) ← uriText fuel after
          pure (text.toList ++ more, n + 3 * bytes.length)
      else if isUriChar c then do
        let (more, n) ← uriText fuel rest
        pure (c :: more, n + 1)
      else .ok ([], 0)

def takeUri (c : Cursor) : Except Fault (String × Cursor) := do
  let (text, n) ← uriText c.size c.rest
  if n = 0 then c.refuse else pure (String.ofList text, c.advance n)

/-- The handle of a tag: a mark alone, or a name between two marks. -/
def takeHandle (c : Cursor) : Except Fault (String × Cursor) :=
  match c.rest with
  | '!' :: cs =>
    if cs.head? = some ' ' then .ok ("!", c.next)
    else
      let name := cs.takeWhile isNameChar
      if (cs.drop name.length).head? = some '!' then
        .ok ("!" ++ String.ofList name ++ "!", c.advance (name.length + 2))
      else (c.advance (name.length + 1)).refuse
  | _ => c.refuse

/-- The rest of a word. -/
def restOfWord (cs : List Char) : List Char := cs.takeWhile fun c => !(c == ' ' || isBreak c)

/-- A tag after its handle, if it has one. -/
def takeSuffix (c : Cursor) : Except Fault (Token × Cursor) := do
  let word := restOfWord (c.rest.drop 1)
  if word.contains '!' then
    let (handle, c) ← takeHandle c
    let (uri, c) ← takeUri c
    pure (.tag (some handle) uri, c)
  else
    let (uri, after) ← takeUri c.next
    -- A word without a handle is looked through to its end before anything is made of it.
    if (c.rest.drop (word.length + 1)).isEmpty && !after.rest.isEmpty then .error .unfinished
    else pure (.tag (some "!") uri, after)

/-- A tag. -/
def takeTag (c : Cursor) : Except Fault (Token × Cursor) := do
  let (token, c) ←
    if c.peek 1 = some '<' then do
      let (uri, c) ← takeUri (c.advance 2)
      if c.peek = some '>' then pure (Token.tag none uri, c.next) else c.refuse
    else if endsWord (c.peek 1) then pure (Token.tag none "!", c.next)
    else takeSuffix c
  if c.peek = some ' ' || endsLine c.peek then pure (token, c) else .error .unreadable

/-! ## Instructions -/

def takeNumber (c : Cursor) : Except Fault (Nat × Cursor) :=
  let ds := c.rest.takeWhile Char.isDigit
  if ds.isEmpty then c.refuse
  else match Numeral.integer 10 ds with
    | .ok n => .ok (n.toNat, c.advance ds.length)
    | .error f => .error (.integer f)

def requireEnd (c : Cursor) : Except Fault Unit :=
  if c.peek = some ' ' || endsLine c.peek then .ok () else .error .unreadable

/-- An instruction, after its mark, with the rest of its line. -/
def takeInstruction (c : Cursor) : Except Fault (Instruction × Cursor) := do
  let (name, c) ← takeName c
  requireEnd c
  let blank := c.skip (· == ' ')
  let (i, c) ←
    if name = "YAML" then do
      let (major, c) ← takeNumber blank
      if c.peek = some '.' then
        let (minor, c) ← takeNumber c.next
        requireEnd c
        pure (Instruction.version major minor, c)
      else c.refuse
    else if name = "TAG" then do
      let (handle, c) ← takeHandle blank
      if c.peek = some ' ' then
        let (start, c) ← takeUri (c.skip (· == ' '))
        requireEnd c
        pure (Instruction.tag handle start, c)
      else c.refuse
    else pure (Instruction.other, c.skipLine)
  let c ← c.finishLine
  pure (i, c)

/-! ## Tokens -/

/-- Ends everything that is open before a mark between documents. -/
def closeDocument (s : Scan) : Except Fault Scan := do
  let s ← (s.unwind (-1)).dropKey
  pure { s with allowKey := false }

def openFlow (s : Scan) (t : Token) : Except Fault Scan := do
  let s ← s.saveKey
  pure { s.mark t with flow := s.flow + 1, allowKey := true, keys := none :: s.keys }

def closeFlow (s : Scan) (t : Token) : Except Fault Scan := do
  let s ← s.dropKey
  pure { s.mark t with flow := s.flow - 1, allowKey := false,
                       keys := if s.flow = 0 then s.keys else s.keys.drop 1 }

def flowEntry (s : Scan) : Except Fault Scan := do
  let s ← s.dropKey
  pure { s.mark .flowEntry with allowKey := true }

/-- Opens a block here if it needs one. -/
def openBlock (s : Scan) (t : Token) : Scan :=
  match s.addIndent s.cursor.column with
  | some s => s.push t
  | none => s

def blockEntry (s : Scan) : Except Fault Scan :=
  if s.flow = 0 && !s.allowKey then .error .unreadable
  else do
    let s := if s.flow = 0 then s.openBlock .blockSequenceStart else s
    let s ← s.dropKey
    pure { s.mark .blockEntry with allowKey := true }

def explicitKey (s : Scan) : Except Fault Scan :=
  if s.flow = 0 && !s.allowKey then .error .unreadable
  else do
    let s := if s.flow = 0 then s.openBlock .blockMappingStart else s
    let s ← s.dropKey
    pure { s.mark .key with allowKey := s.flow == 0 }

/-- The colon before a value: what stood before it was a key. -/
def value (s : Scan) : Except Fault Scan :=
  match s.key? with
  | some k =>
    let s := (s.setKey none).insert k.number .key
    let s :=
      if s.flow = 0 then
        match s.addIndent k.column with
        | some s => s.insert k.number .blockMappingStart
        | none => s
      else s
    .ok { s.mark .value with allowKey := false }
  | none =>
    if s.flow = 0 && !s.allowKey then .error .unreadable
    else do
      let s := if s.flow = 0 then s.openBlock .blockMappingStart else s
      let s ← s.dropKey
      pure { s.mark .value with allowKey := s.flow == 0 }

/-- A token that may be a key, or begin one, and after which none may begin. -/
def keyToken (s : Scan) (read : Cursor → Except Fault (Token × Cursor)) : Except Fault Scan := do
  let s ← s.saveKey
  let (t, c) ← read s.cursor
  pure { (s.push t).move c with allowKey := false }

def quotedScalar (s : Scan) (double : Bool) : Except Fault Scan :=
  s.keyToken fun c => do
    let (text, d) ← quotedText double (c.size + 1) c.next
    pure (.scalar (String.ofList text) false, d)

def blockScalarToken (s : Scan) (folded : Bool) : Except Fault Scan := do
  let s ← s.dropKey
  let (text, c) ← blockScalar folded s.indent s.cursor.next
  pure { (s.push (.scalar (String.ofList text) false)).move c with allowKey := true }

def plainScalar (s : Scan) : Except Fault Scan := do
  let s ← s.saveKey
  let (text, newLine, c) :=
    plainText (s.flow != 0) (s.indent + 1) (s.cursor.size + 1) [] false s.cursor
  pure { (s.push (.scalar (String.ofList text) true)).move c with allowKey := newLine }

/-- The characters that cannot begin a plain scalar. -/
def isIndicator (c : Char) : Bool := "-?:,[]\x7b\x7d#&*!|>'\x22%@\x60".toList.contains c

/-- Whether a plain scalar begins here. -/
def startsPlain (flow : Bool) (c : Char) (after : Option Char) : Bool :=
  !(endsWord (some c) || isIndicator c) ||
    (!endsWord after && (c == '-' || (!flow && (c == '?' || c == ':'))))

/-- Whether so many characters are left, or the text has come to its true end. -/
def requireText (s : Scan) (n : Nat) : Except Fault Unit :=
  match s.ending with
  | some f => if (s.cursor.rest.drop (n - 1)).isEmpty then .error f else .ok ()
  | none => .ok ()

/-- How many characters tell what begins here. -/
def lookahead (s : Scan) : Nat :=
  match s.cursor.peek with
  | some c =>
    if s.cursor.column = 0 && (c == '-' || c == '.') then
      if "---".toList.isPrefixOf s.cursor.rest || "...".toList.isPrefixOf s.cursor.rest then 4 else 3
    else if c == '-' || (s.flow == 0 && (c == '?' || c == ':')) then 2
    else 1
  | none => 1

/-- The next token, or the end of the text. -/
def fetch (s : Scan) : Except Fault (Scan × Bool) := do
  let s := s.toNextToken
  s.requireText 1
  let s ← s.dropStale
  let s := s.unwind s.cursor.column
  s.requireText s.lookahead
  let after := s.cursor.peek 1
  match s.cursor.peek with
  | none =>
    let s ← (s.unwind (-1)).dropKey
    pure (s.push .streamEnd, true)
  | some ch =>
    let go (r : Except Fault Scan) : Except Fault (Scan × Bool) := do
      let s ← r
      s.requireText 1
      pure (s, false)
    if ch = '%' && s.cursor.column == 0 then go do
      let s ← s.closeDocument
      let (i, c) ← takeInstruction s.cursor.next
      pure ((s.push (.instruction i)).move c)
    else if s.cursor.column == 0 && s.cursor.atSeparator then go do
      let s ← s.closeDocument
      pure ((s.push (if ch = '-' then .documentStart else .documentEnd)).forward 3)
    else if ch = '[' then go (s.openFlow .flowSequenceStart)
    else if ch = '\x7b' then go (s.openFlow .flowMappingStart)
    else if ch = ']' then go (s.closeFlow .flowSequenceEnd)
    else if ch = '\x7d' then go (s.closeFlow .flowMappingEnd)
    else if ch = ',' then go s.flowEntry
    else if ch = '-' && endsWord after then go s.blockEntry
    else if ch = '?' && (s.flow != 0 || endsWord after) then go s.explicitKey
    else if ch = ':' && (s.flow != 0 || endsWord after) then go s.value
    else if ch = '*' then go (s.keyToken fun c => do
      let (name, d) ← takeAnchor c.next
      pure (.alias name, d))
    else if ch = '&' then go (s.keyToken fun c => do
      let (name, d) ← takeAnchor c.next
      pure (.anchor name, d))
    else if ch = '!' then go (s.keyToken takeTag)
    else if (ch = '|' || ch = '>') && s.flow == 0 then go (s.blockScalarToken (ch == '>'))
    else if ch = '\x27' then go (s.quotedScalar false)
    else if ch = '\x22' then go (s.quotedScalar true)
    else if startsPlain (s.flow != 0) ch after then go s.plainScalar
    else s.cursor.next.refuse

/-- How many tokens are handed on before more are needed: those before the first that may turn out to be a
key. -/
def settled (s : Scan) : Nat := (s.keys.filterMap fun k => k.map (·.number)).foldl min s.count

/-- The tokens up to a fault. -/
def breakOff (s : Scan) (f : Fault) : List Token :=
  let told := if f = .unfinished then s.ending.getD .unreadable else f
  (s.tokens.drop (s.count - s.settled)).reverse ++ [.broken told]

/-- Fetches tokens to the end of the text, or to a fault. -/
def run : Nat → Scan → List Token
  | 0, s => s.breakOff .unreadable
  | fuel + 1, s =>
    match s.fetch with
    | .error f => s.breakOff f
    | .ok (after, true) => after.tokens.reverse
    | .ok (after, false) =>
      match after.dropStale with
      | .error f => s.breakOff f
      | .ok after => run fuel after

end Scan

/-- The tokens of a text, which ends where it ends or at a fault. Every token but the last takes a character at
least. -/
def tokens (text : List Char) (ending : Option Fault) : List Token :=
  Scan.run (text.length + 1) { cursor := { rest := text, size := text.length }, ending }

end ProgramFacts.Yaml
