import ProgramFacts.Exclusion.Glob
import ProgramFacts.Text.Pieces
import ProgramFacts.Text.Ranges

/-!
# Exclusion of packages

Patterns over the paths of packages, as version control systems have them for files: the last pattern that
matches a path decides, and one that begins with an exclamation mark keeps what it matches.
-/

namespace ProgramFacts.Exclusion

/-- What a rule matches. -/
inductive Matcher
  /-- Every path but the empty one. -/
  | anything
  /-- Every path that has a slash. -/
  | anyDirectory
  | pieces (ps : List Piece)
deriving DecidableEq

def Matcher.matches : Matcher → List Char → Bool
  | .anything, cs => !cs.isEmpty
  | .anyDirectory, cs => cs.contains '/'
  | .pieces ps, cs => isMatch ps cs

structure Rule where
  keeps : Bool
  matcher : Matcher
deriving DecidableEq

/-- The segment that stands for any directories. -/
def anyDepth : List Char := ['*', '*']

/-- The segments of a pattern, which goes for every depth unless a slash stands before its end. -/
def anchor : List (List Char) → List (List Char)
  | [] :: ss => ss
  | [s] => if s = anyDepth then [s] else [anyDepth, s]
  | [s, []] => if s = anyDepth then [s, []] else [anyDepth, s, []]
  | ss => ss

/-- A slash at the end stands for all that is in a directory. -/
def openEnd (ss : List (List Char)) : List (List Char) :=
  if ss.getLast? = some [] then ss.dropLast ++ [anyDepth] else ss

/-- Leaves one of adjacent segments that stand for any directories. -/
def collapse : List (List Char) → List (List Char)
  | [] => []
  | s :: ss =>
    let rest := collapse ss
    if s = anyDepth ∧ rest.head? = some anyDepth then rest else s :: rest

/-- The pieces of a segment that is a name. -/
def segmentPieces (s : List Char) : Except GlobProblem (List Piece) :=
  if s = ['*'] then .ok [.name] else parseGlob s

/-- The pieces of segments, which come after others; `slash` says whether a slash divides them. -/
def tailPieces (slash : Bool) : List (List Char) → Except GlobProblem (List Piece)
  | [] => .ok []
  | [s] =>
    if s = anyDepth then .ok [.literal '/']
    else do
      let ps ← segmentPieces s
      pure ((if slash then [.literal '/'] else []) ++ ps ++ [.boundary])
  | s :: ss =>
    if s = anyDepth then do
      let ps ← tailPieces true ss
      pure (.middle :: ps)
    else do
      let first ← segmentPieces s
      let ps ← tailPieces true ss
      pure ((if slash then [.literal '/'] else []) ++ first ++ ps)

/-- The pieces of a pattern's segments. -/
def allPieces : List (List Char) → Except GlobProblem (List Piece)
  | s :: t :: ss =>
    if s = anyDepth then do
      let ps ← tailPieces false (t :: ss)
      pure (.leading :: ps)
    else tailPieces false (s :: t :: ss)
  | ss => tailPieces false ss

/-- What the segments of a pattern match; `directory` says that it ended in a slash. -/
def matcherOf (directory : Bool) (ss : List (List Char)) : Except GlobProblem Matcher :=
  if ss = [anyDepth] then .ok (if directory then .anyDirectory else .anything)
  else if ss = [anyDepth, ['*']] then .ok .anything
  else if ss = [anyDepth, ['*'], anyDepth] then .ok .anyDirectory
  else .pieces <$> allPieces ss

/-- Blanks at the end say nothing, unless the last one is escaped. -/
def trimPattern (cs : List Char) : List Char :=
  if "\\ ".toList.isSuffixOf cs then cs else Text.trimEnd Text.isBlank cs

/-- Why a pattern has no rule. -/
inductive PatternFault
  /-- It means nothing. -/
  | meaningless (text : String)
  | reversed (r : ReversedRange)
deriving DecidableEq

/-- The range that a matcher cannot have. -/
def Matcher.reversed? : Matcher → Option ReversedRange
  | .pieces ps => Exclusion.reversed? ps
  | _ => none

/-- The rule of a pattern, none for a comment or a pattern that matches nothing. -/
def parseRule (pattern : List Char) : Except PatternFault (Option Rule) :=
  let meaningless : PatternFault := .meaningless (String.ofList pattern)
  let cs := trimPattern pattern
  if cs.isEmpty || cs.head? == some '#' || cs == ['/'] then .ok none
  else
    let keeps := cs.head? == some '!'
    let segments := Text.split '/' (if keeps then cs.drop 1 else cs)
    let directory := segments.getLast? == some []
    let anchored := anchor segments
    if anchored.isEmpty then .error meaningless
    else match matcherOf directory (collapse (openEnd anchored)) with
      | .ok matcher =>
        match matcher.reversed? with
        | some r => .error (.reversed r)
        | none => .ok (some { keeps, matcher })
      | .error .openBracket => .ok none
      | .error .openEscape => .error meaningless

/-- A path as patterns see it: without a slash, or else a dot and a slash, at its start. -/
def testedPath : List Char → List Char
  | '/' :: cs => cs
  | '.' :: '/' :: cs => cs
  | cs => cs

/-- Whether the rules exclude a path: the last one that matches it decides. -/
def excludes (rules : List Rule) (path : List Char) : Bool :=
  match rules.reverse.find? (·.matcher.matches (testedPath path)) with
  | some r => !r.keeps
  | none => false

end ProgramFacts.Exclusion
