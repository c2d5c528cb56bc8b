import ProgramFacts.Atom

/-!
# Terms

A term is an atom, a list of terms, or a name applied to terms. It is written on one line, its parts divided
by a comma and a blank.
-/

namespace ProgramFacts

/-- What a fact is made of. -/
inductive Term
  | atom (value : String)
  | compound (name : String) (arguments : List Term)
  | list (elements : List Term)

namespace Term

instance : Inhabited Term := ⟨.list []⟩

def isAtom : Term → Bool
  | .atom _ => true
  | _ => false

/-- The terms directly below a term. -/
def parts : Term → List Term
  | .atom _ => []
  | .compound _ ts => ts
  | .list ts => ts

/-- The name of a compound. -/
def functor : Term → String
  | .compound n _ => n
  | _ => ""

mutual

/-- The one-line form of a term. -/
def chars : Term → List Char
  | .atom v => Atom.encode v.toList
  | .compound n ts => n.toList ++ '(' :: charsList ts ++ [')']
  | .list ts => '[' :: charsList ts ++ [']']

/-- The one-line forms of several terms, divided by a comma and a blank. -/
def charsList : List Term → List Char
  | [] => []
  | t :: ts => chars t ++ if ts.isEmpty then [] else ',' :: ' ' :: charsList ts

end

/-- The one-line text of a term. -/
def encode (t : Term) : String := String.ofList t.chars

end Term

end ProgramFacts
