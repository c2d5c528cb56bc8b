/-!
# Warnings

What a walk over a model reports: forms of types and values that have no shape in a fact, and the things it
leaves out.
-/

namespace ProgramFacts

inductive Warning
  /-- A placeholder stands for a type. -/
  | unknownType (what : String)
  /-- A placeholder stands for the value of an annotation's argument. -/
  | unknownValue (what : String)
  /-- A directive was left out. -/
  | directive (shown moduleName : String)
  /-- Something in a package that is no type was left out. -/
  | packageMember (shown package : String)
  /-- A type was left out with all that is in it. -/
  | typeKind (kind qualifiedName : String)
  /-- A member that is no declaration was left out. -/
  | member (shown : String)
  | executableKind (kind name : String)
  | variableKind (kind name : String)
deriving DecidableEq

namespace Warning

def message : Warning → String
  | .unknownType what => "Unsupported type kind: " ++ what
  | .unknownValue what => "Unknown annotation value type: " ++ what
  | .directive shown m => "Unsupported module directive: " ++ shown ++ " in " ++ m
  | .packageMember shown p => "Unsupported package member: " ++ shown ++ " in " ++ p
  | .typeKind kind name => "Unsupported type kind: " ++ kind ++ " for " ++ name
  | .member shown => "Unsupported member symbol: " ++ shown
  | .executableKind kind name => "Unsupported executable kind: " ++ kind ++ " for " ++ name
  | .variableKind kind name => "Unsupported variable kind: " ++ kind ++ " for " ++ name

/-- Whether the warning reports something left out, rather than a placeholder. -/
def isSkip : Warning → Bool
  | .unknownType _ => false
  | .unknownValue _ => false
  | _ => true

end Warning

end ProgramFacts
