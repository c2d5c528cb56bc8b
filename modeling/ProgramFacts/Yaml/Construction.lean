import ProgramFacts.Yaml.Datum
import ProgramFacts.Yaml.Graph

/-!
# What the nodes of a YAML document stand for

Every node stands for one object, made when the node is first met. A scalar is made at once; a collection is
made empty and filled later, when all collections met before it have been filled. So a collection may hold
itself, and of several faults the one nearest to the root is found, and of those the first.

Before a mapping is filled, the mappings that it merges are put in front of its own pairs, which win over them.
-/

namespace ProgramFacts.Yaml

/-- A key of a mapping. Numbers that are none differ from one another unless they are one object: the word for
them stands for a single one. -/
structure Key where
  scalar : Scalar
  /-- The node of the key, for a number that is none and was not written as the word for it. -/
  origin : Option NodeId

def Key.same (a b : Key) : Bool := a.scalar.sameKey b.scalar && a.origin == b.origin

/-- What a node stands for. -/
inductive Object
  | scalar (key : Key)
  | list (items : List NodeId)
  | pairs (items : List (NodeId × NodeId))
  | set (members : List Scalar)
  | mapping (entries : List (Scalar × NodeId))

/-- The nodes, what has been made of them, and the collections still to be filled, last first. -/
structure Construction where
  graph : Graph
  objects : Array (Option Object)
  waiting : List NodeId := []

abbrev Build := StateT Construction (Except Fault)

namespace Build

def refuse {α : Type} (f : Fault) : Build α := throw f

def getGraph : Build Graph := do
  return (← get).graph

def store (id : NodeId) (o : Object) : Build Unit :=
  modify fun c => { c with objects := c.objects.setIfInBounds id (some o) }

/-- Makes a collection to be filled later. -/
def enqueue (id : NodeId) (o : Object) : Build Object := do
  store id o
  modify fun c => { c with waiting := id :: c.waiting }
  pure o

end Build

/-- The text of a node. A mapping has the text of the value under its first equals sign. -/
def Graph.text (g : Graph) : Nat → NodeId → Except Fault String
  | 0, _ => .error .endless
  | fuel + 1, id =>
    match (g.node id).content with
    | .scalar text => .ok text
    | .sequence _ => .error .unreadable
    | .mapping ps =>
      match ps.find? fun p => g.tag p.1 = .equals with
      | some (_, v) => g.text fuel v
      | none => .error .unreadable

/-- Whether a node is a scalar. -/
def Graph.isScalar (g : Graph) (id : NodeId) : Bool :=
  match (g.node id).content with
  | .scalar _ => true
  | _ => false

/-- Makes the scalar of a node. -/
def makeScalar (id : NodeId) : Build Object := do
  let g ← Build.getGraph
  let text ← g.text (g.size + 1) id
  if g.tag id = .timestamp && !g.isScalar id then Build.refuse .momentMapping
  else do
    let s ← buildScalar (g.tag id) text
    let origin := if s = .number .nan && !isNotNumberWord text then some id else none
    let o : Object := .scalar ⟨s, origin⟩
    Build.store id o
    pure o

/-- The object of a node. -/
def make (id : NodeId) : Build Object := do
  match (← get).objects.getD id none with
  | some o => pure o
  | none =>
    match (← Build.getGraph).tag id with
    | .sequence => Build.enqueue id (.list [])
    | .mapping => Build.enqueue id (.mapping [])
    | .set => Build.enqueue id (.set [])
    | .pairs => Build.enqueue id (.pairs [])
    | .merge | .equals | .unknown => Build.refuse .unreadable
    | _ => makeScalar id

/-- The key that a node stands for: only scalars can be one. -/
def makeKey (id : NodeId) : Build Key := do
  match ← make id with
  | .scalar k => pure k
  | _ => Build.refuse .unreadable

/-- Takes the first merge out of the pairs of a mapping, and gives what is to be merged. -/
def takeMerge? (id : NodeId) : Build (Option NodeId) := do
  let g ← Build.getGraph
  let ps := g.pairs id
  let isOwn (p : NodeId × NodeId) : Bool := g.tag p.1 ≠ .merge
  match ps.dropWhile isOwn with
  | [] => pure none
  | (_, v) :: after =>
    modify fun c => { c with graph := c.graph.setContent id (.mapping (ps.takeWhile isOwn ++ after)) }
    pure (some v)

/-- From now on the equals signs among the keys of a mapping stand for themselves. -/
def freeEquals (id : NodeId) : Build Unit :=
  modify fun c =>
    let keys := (c.graph.pairs id).map (·.1)
    { c with graph := (keys.filter fun k => c.graph.tag k = .equals).foldl (·.setTag · .text) c.graph }

/-- Puts the pairs of the mappings that a mapping merges in front of its own, and gives all of them. The fuel is
the number of merges that are left. -/
def flatten : Nat → NodeId → Build (List (NodeId × NodeId))
  | 0, id => do
    return (← Build.getGraph).pairs id
  | fuel + 1, id => do
    match ← takeMerge? id with
    | none =>
      freeEquals id
      return (← Build.getGraph).pairs id
    | some v =>
      let merged ← match ((← Build.getGraph).node v).content with
        | .mapping _ => flatten fuel v
        | .sequence items => items.foldlM (fun later i => do
            match ((← Build.getGraph).node i).content with
            | .mapping _ =>
              let ps ← flatten fuel i
              pure (ps ++ later)
            | _ => Build.refuse .unreadable) []
        | .scalar _ => Build.refuse .unreadable
      let own ← flatten fuel id
      modify fun c => { c with graph := c.graph.setContent id (.mapping (merged ++ own)) }
      pure (merged ++ own)

/-- Sets a key: an entry that has it keeps its key and place. -/
def setEntry (key : Key) (value : NodeId) : List (Key × NodeId) → List (Key × NodeId)
  | [] => [(key, value)]
  | (k, v) :: es => if k.same key then (k, value) :: es else (k, v) :: setEntry key value es

/-- The entries of pairs. -/
def makeEntries (ps : List (NodeId × NodeId)) : Build (List (Key × NodeId)) :=
  ps.foldlM (fun es p => do
    let k ← makeKey p.1
    let _ ← make p.2
    pure (setEntry k p.2 es)) []

/-- The pair of an item in a list of pairs: a mapping with nothing else. -/
def makePair (id : NodeId) : Build (NodeId × NodeId) := do
  match ((← Build.getGraph).node id).content with
  | .mapping [p] =>
    let _ ← make p.1
    let _ ← make p.2
    pure p
  | _ => Build.refuse .unreadable

/-- Fills a collection. -/
def fill (merges : Nat) (id : NodeId) : Build Unit := do
  let n := (← Build.getGraph).node id
  match n.tag, n.content with
  | .sequence, .sequence items =>
    let _ ← items.mapM make
    Build.store id (.list items)
  | .pairs, .sequence items =>
    let ps ← items.mapM makePair
    Build.store id (.pairs ps)
  | .mapping, .mapping _ =>
    let es ← makeEntries (← flatten merges id)
    Build.store id (.mapping (es.map fun e => (e.1.scalar, e.2)))
  | .set, .mapping _ =>
    let es ← makeEntries (← flatten merges id)
    Build.store id (.set (es.map (·.1.scalar)))
  | _, _ => Build.refuse .unreadable

/-- Fills the collections that wait, and those that come to wait meanwhile after them. -/
def fillAll (merges : Nat) : Nat → List NodeId → Build Unit
  | 0, _ => pure ()
  | fuel + 1, ids => do
    for id in ids do
      fill merges id
    let waiting := (← get).waiting.reverse
    if waiting.isEmpty then pure ()
    else do
      modify fun c => { c with waiting := [] }
      fillAll merges fuel waiting

/-- The objects of the nodes of a document. Every round fills a collection at least, and each is filled once. -/
def construct (g : Graph) (root : NodeId) : Except Fault (Array (Option Object)) := do
  let build : Build Unit := do
    let _ ← make root
    fillAll (g.pairCount + 1) (g.size + 1) []
  let ((), c) ← build.run { graph := g, objects := Array.replicate g.size none }
  pure c.objects

end ProgramFacts.Yaml
