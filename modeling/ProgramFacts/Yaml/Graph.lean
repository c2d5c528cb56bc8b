import ProgramFacts.Yaml.Tag

/-!
# The nodes of a YAML document

Nodes are known by their numbers, so that an alias can stand for any node, and for one that it is part of.
-/

namespace ProgramFacts.Yaml

/-- The number of a node. -/
abbrev NodeId := Nat

inductive Content
  | scalar (text : String)
  | sequence (items : List NodeId)
  | mapping (pairs : List (NodeId × NodeId))

structure Node where
  tag : Tag
  content : Content

/-- What stands for a node that is not written. -/
def Node.empty : Node := ⟨.null, .scalar ""⟩

instance : Inhabited Node := ⟨.empty⟩

abbrev Graph := Array Node

namespace Graph

def node (g : Graph) (id : NodeId) : Node := g.getD id .empty

def tag (g : Graph) (id : NodeId) : Tag := (g.node id).tag

/-- The pairs of a mapping; other nodes have none. -/
def pairs (g : Graph) (id : NodeId) : List (NodeId × NodeId) :=
  match (g.node id).content with
  | .mapping ps => ps
  | _ => []

def setTag (g : Graph) (id : NodeId) (t : Tag) : Graph := g.modify id fun n => { n with tag := t }

def setContent (g : Graph) (id : NodeId) (c : Content) : Graph := g.modify id fun n => { n with content := c }

/-- How many pairs all mappings have together. -/
def pairCount (g : Graph) : Nat :=
  g.foldl (fun n node => match node.content with
    | .mapping ps => n + ps.length
    | _ => n) 0

end Graph

end ProgramFacts.Yaml
