import ProgramFacts.Term

/-!
# Terms over several lines

A compound stays on one line if it holds only atoms and empty lists, a list if it holds only atoms. Any other
has one part per line, indented one unit deeper, with the closing bracket on a line of its own.
-/

namespace ProgramFacts.Term

/-- What a compound may hold and stay on one line. -/
def isSmall : Term → Bool
  | .atom _ => true
  | .list ts => ts.isEmpty
  | .compound _ _ => false

/-- Whether the parts of a term stay on one line. -/
def isSimple : Term → Bool
  | .atom _ => true
  | .compound _ ts => ts.all isSmall
  | .list ts => ts.all isAtom

/-- The indentation of a level. -/
def indentation (unit : List Char) : Nat → List Char
  | 0 => []
  | level + 1 => unit ++ indentation unit level

mutual

/-- The term with its first line at a level that has been indented already. -/
def layout (unit : List Char) (level : Nat) : Term → List Char
  | .atom v => Atom.encode v.toList
  | .compound n ts =>
    n.toList ++ '(' ::
      (if ts.all isSmall then charsList ts
        else '\n' :: layoutLines unit (level + 1) ts ++ indentation unit level) ++ [')']
  | .list ts =>
    '[' ::
      (if ts.all isAtom then charsList ts
        else '\n' :: layoutLines unit (level + 1) ts ++ indentation unit level) ++ [']']

/-- Each term on a line of its own, or on several. -/
def layoutLines (unit : List Char) (level : Nat) : List Term → List Char
  | [] => []
  | t :: ts =>
    indentation unit level ++ layout unit level t ++ (if ts.isEmpty then [] else [',']) ++
      '\n' :: layoutLines unit level ts

end

/-- The text of a term over several lines. -/
def format (unit : String) (t : Term) : String := String.ofList (t.layout unit.toList 0)

/-- How facts are written. -/
inductive Style
  | oneLine
  | indented (unit : String)
deriving DecidableEq

/-- Four blanks. -/
def defaultUnit : String := "    "

/-- The text of a term in a style. -/
def styled (style : Style) (t : Term) : String :=
  match style with
  | .oneLine => t.encode
  | .indented unit => t.format unit

/-- The text of a fact: a term and a period. -/
def render (style : Style) (t : Term) : String := t.styled style ++ "."

end ProgramFacts.Term
