import ProgramFacts.Yaml.Input
import ProgramFacts.Yaml.Scan
import ProgramFacts.Yaml.Structure
import ProgramFacts.Yaml.Unrolling

/-!
# YAML texts

The document of a text. All of its structure is read before anything is built.
-/

namespace ProgramFacts.Yaml

/-- The document of a text; an empty text has null. -/
def parse (i : Input) : Except Fault Document := do
  match ← readTokens (tokens i.text i.ending) with
  | none => pure .null
  | some r =>
    let objects ← construct r.graph r.root
    pure (unroll objects r.root)

end ProgramFacts.Yaml
