/-!
# Globs

A pattern over paths is a sequence of pieces. Each piece takes characters from the start of a path in one or
more ways; a path matches if the pieces can take some of it one after the other. Pieces have a notation as a
regular expression, by which a fault in them is told.
-/

namespace ProgramFacts.Exclusion

/-- A character or a range of them. -/
structure CharRange where
  low : Char
  high : Char
deriving DecidableEq

inductive Piece
  | literal (c : Char)
  /-- Any characters but slashes. -/
  | run
  /-- At least one character, but no slashes. -/
  | name
  /-- One character, but no slash. -/
  | one
  /-- One character that is, or is not, in one of the ranges that stand between brackets. -/
  | oneOf (negated : Bool) (body : List Char)
  /-- Nothing, or any directories with the slash after them. -/
  | leading
  /-- Nothing, or a slash and whatever follows it. -/
  | middle
  /-- A slash, or the end. -/
  | boundary
deriving DecidableEq

/-- The ranges within brackets; a hyphen between two characters makes them a range. -/
def rangesOf : List Char → List CharRange
  | [] => []
  | a :: '-' :: b :: cs => ⟨a, b⟩ :: rangesOf cs
  | a :: cs => ⟨a, a⟩ :: rangesOf cs

def isInLine (c : Char) : Bool := c != '\n'

def isInName (c : Char) : Bool := c != '/'

def isSlash (c : Char) : Bool := c == '/'

def CharRange.has (r : CharRange) (c : Char) : Bool := decide (r.low ≤ c) && decide (c ≤ r.high)

/-! ## Matching

A list of truth values tells something of every tail of a path, from the whole path to the empty one. What
pieces match is told of all tails at once, from the last piece to the first, so that no tail is tried twice. -/

/-- The tails that begin with a character of a class and go on as told. -/
def afterOne (p : Char → Bool) : List Char → List Bool → List Bool
  | c :: cs, _ :: told => (p c && told.headD false) :: afterOne p cs told
  | _, _ => [false]

/-- The tails that go on as told after any number of characters of a class. -/
def afterAny (p : Char → Bool) : List Char → List Bool → List Bool
  | c :: cs, t :: told =>
    let rest := afterAny p cs told
    (t || (p c && rest.headD false)) :: rest
  | _, told => told

/-- The tails that go on as told after at least one character of a class. -/
def afterSome (p : Char → Bool) (cs : List Char) (told : List Bool) : List Bool :=
  afterOne p cs (afterAny p cs told)

/-- The tails that are as told and have nothing left but a line break at the most. -/
def atEnd : List Char → List Bool → List Bool
  | c :: cs, t :: told => (t && c == '\n' && cs.isEmpty) :: atEnd cs told
  | _, told => told

/-- The tails that are as told in one of two ways. -/
def either (told more : List Bool) : List Bool := List.zipWith (· || ·) told more

/-- The tails that a piece matches, if they then go on as told. -/
def Piece.before (cs : List Char) (told : List Bool) : Piece → List Bool
  | .literal c => afterOne (· == c) cs told
  | .run => afterAny isInName cs told
  | .name => afterSome isInName cs told
  | .one => afterOne isInName cs told
  | .oneOf negated body =>
    let ranges := rangesOf body
    afterOne (fun d => (ranges.any (·.has d)) != negated) cs told
  | .leading => either told (afterSome isInLine cs (afterOne isSlash cs told))
  | .middle => either told (afterOne isSlash cs (afterSome isInLine cs told))
  | .boundary => either (atEnd cs told) (afterOne isSlash cs told)

/-- Whether pieces can take a path from its start on. -/
def isMatch (ps : List Piece) (cs : List Char) : Bool :=
  (ps.foldr (fun p told => p.before cs told) (List.replicate (cs.length + 1) true)).headD false

/-! ## Notation -/

/-- The characters that a regular expression takes for others unless they are escaped. -/
def needsEscape (c : Char) : Bool := "()[]\x7b\x7d?*+-|^$\\.&~# \t\n\r\x0b\x0c".toList.contains c

/-- A character between brackets, where only the backslash is escaped. -/
def bracketed (c : Char) : List Char := if c = '\\' then ['\\', '\\'] else [c]

/-- A piece as part of a regular expression. -/
def Piece.written : Piece → List Char
  | .literal c => if needsEscape c then ['\\', c] else [c]
  | .run => "[^/]*".toList
  | .name => "[^/]+".toList
  | .one => "[^/]".toList
  | .oneOf negated body => (if negated then ['[', '^'] else ['[']) ++ body.flatMap bracketed ++ [']']
  | .leading => "(?:.+/)?".toList
  | .middle => "(?:/.+)?".toList
  | .boundary => "(?:/|$)".toList

/-- Pieces as a regular expression. -/
def written (ps : List Piece) : List Char := '^' :: ps.flatMap Piece.written

/-- A range whose ends stand in the wrong order. -/
structure ReversedRange where
  range : CharRange
  /-- The regular expression that has it. -/
  expression : List Char
  /-- How many characters stand before it there. -/
  position : Nat
deriving DecidableEq

/-- The message for a reversed range; the line and the column are told if there are several lines. -/
def ReversedRange.message (r : ReversedRange) : String :=
  let before := r.expression.take r.position
  let line := before.count '\n' + 1
  let column := (before.reverse.takeWhile (· ≠ '\n')).length + 1
  "bad character range " ++ String.ofList (bracketed r.range.low ++ '-' :: bracketed r.range.high) ++
    " at position " ++ toString r.position ++
    if r.expression.contains '\n' then " (line " ++ toString line ++ ", column " ++ toString column ++ ")" else ""

/-- The first reversed range between brackets, and how many characters stand before it there. -/
def reversedIn? (position : Nat) : List Char → Option (CharRange × Nat)
  | [] => none
  | a :: '-' :: b :: cs =>
    if b < a then some (⟨a, b⟩, position)
    else reversedIn? (position + (bracketed a).length + 1 + (bracketed b).length) cs
  | a :: cs => reversedIn? (position + (bracketed a).length) cs

/-- The first reversed range in pieces, and how many characters stand before it. -/
def reversedFrom? (position : Nat) : List Piece → Option (CharRange × Nat)
  | [] => none
  | p :: ps =>
    let here := match p with
      | .oneOf negated body => reversedIn? (position + if negated then 2 else 1) body
      | _ => none
    match here with
    | some r => some r
    | none => reversedFrom? (position + p.written.length) ps

/-- The first reversed range of a pattern. -/
def reversed? (ps : List Piece) : Option ReversedRange :=
  (reversedFrom? 1 ps).map fun (range, position) => { range, expression := written ps, position }

/-! ## Parsing -/

/-- Why a glob has no pieces. -/
inductive GlobProblem
  /-- A bracket is not closed. -/
  | openBracket
  /-- Nothing follows the last backslash. -/
  | openEscape
deriving DecidableEq

/-- What stands between brackets: whether it is negated, the characters, and how many there are with the closing
bracket. A closing bracket that stands first is a character. -/
def bracket? (cs : List Char) : Option (Bool × List Char × Nat) :=
  let negated := cs.head? = some '!' ∨ cs.head? = some '^'
  let sign := if negated then 1 else 0
  let body := cs.drop sign
  let first := if body.head? = some ']' then 1 else 0
  let more := (body.drop first).takeWhile (· ≠ ']')
  if (body.drop (first + more.length)).isEmpty then none
  else some (decide negated, body.take (first + more.length), sign + first + more.length + 1)

/-- The pieces of a glob. -/
def parseGlob (cs : List Char) : Except GlobProblem (List Piece) :=
  match cs with
  | [] => .ok []
  | ['\\'] => .error .openEscape
  | '\\' :: c :: rest => do
    let ps ← parseGlob rest
    pure (.literal c :: ps)
  | '*' :: rest => do
    let ps ← parseGlob rest
    pure (.run :: ps)
  | '?' :: rest => do
    let ps ← parseGlob rest
    pure (.one :: ps)
  | '[' :: rest =>
    match bracket? rest with
    | none => .error .openBracket
    | some (negated, body, n) => do
      let ps ← parseGlob (rest.drop n)
      pure (.oneOf negated body :: ps)
  | c :: rest => do
    let ps ← parseGlob rest
    pure (.literal c :: ps)
termination_by cs.length
decreasing_by all_goals simp +arith

end ProgramFacts.Exclusion
