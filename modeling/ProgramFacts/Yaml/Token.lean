import ProgramFacts.Yaml.Fault

/-!
# The tokens of YAML texts

A text is cut into tokens only as far as its reader goes. Where the text goes wrong the tokens end with the fault,
which is found by the reader that gets there, and by no other.
-/

namespace ProgramFacts.Yaml

/-- A line that tells how to read the document after it. -/
inductive Instruction
  | version (major minor : Nat)
  | tag (handle start : String)
  | other

inductive Token
  | instruction (i : Instruction)
  | documentStart
  | documentEnd
  | streamEnd
  | blockSequenceStart
  | blockMappingStart
  | blockEnd
  | flowSequenceStart
  | flowSequenceEnd
  | flowMappingStart
  | flowMappingEnd
  | blockEntry
  | flowEntry
  | key
  | value
  | alias (name : String)
  | anchor (name : String)
  | tag (handle : Option String) (suffix : String)
  | scalar (text : String) (plain : Bool)
  /-- The text goes wrong here. -/
  | broken (f : Fault)

end ProgramFacts.Yaml
