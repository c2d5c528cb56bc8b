import ProgramFacts.Yaml.Graph
import ProgramFacts.Yaml.Token

/-!
# The structure of a YAML document

The tokens of a text are read into a graph of tagged nodes; an alias stands for the node that has its anchor. A
node has its anchor before its parts are read, so it may be part of itself. Every reader below takes fuel, which
the number of tokens bounds, and looks at a token only if what it does depends on it.
-/

namespace ProgramFacts.Yaml

/-- The tokens that are left, the names for beginnings of tags, the anchors met so far, and the nodes. -/
structure Reading where
  tokens : List Token
  handles : List (String × String)
  anchors : List (String × NodeId) := []
  graph : Graph := #[]

/-- A reader of part of a document. -/
abbrev Read (α : Type) := Reading → Except Fault (α × Reading)

/-- The token that comes next; there is one unless the text goes wrong. -/
def nextToken : List Token → Except Fault Token
  | [] => .error .unreadable
  | .broken f :: _ => .error f
  | t :: _ => .ok t

namespace Reading

def next (r : Reading) : Except Fault Token := nextToken r.tokens

def tail (r : Reading) : Reading := { r with tokens := r.tokens.drop 1 }

/-- The tokens after which a node may be missing. -/
inductive Stop
  | blockItem
  | indentlessItem
  | pair
  | flowPairKey
  | flowPairValue

def Stop.holds : Stop → Token → Bool
  | .blockItem, .blockEntry => true
  | .blockItem, .blockEnd => true
  | .indentlessItem, .blockEntry => true
  | .indentlessItem, .key => true
  | .indentlessItem, .value => true
  | .indentlessItem, .blockEnd => true
  | .pair, .key => true
  | .pair, .value => true
  | .pair, .blockEnd => true
  | .flowPairKey, .value => true
  | .flowPairKey, .flowEntry => true
  | .flowPairKey, .flowSequenceEnd => true
  | .flowPairKey, .flowMappingEnd => true
  | .flowPairValue, .flowEntry => true
  | .flowPairValue, .flowSequenceEnd => true
  | .flowPairValue, .flowMappingEnd => true
  | _, _ => false

/-- What stands before a node. -/
structure Properties where
  anchor : Option String := none
  tag : Option String := none

/-- The full name of a tag. -/
def tagName (r : Reading) (handle : Option String) (suffix : String) : Except Fault String :=
  match handle with
  | none => .ok suffix
  | some h =>
    match r.handles.lookup h with
    | some start => .ok (start ++ suffix)
    | none => .error .unreadable

/-- Anchor and tag before a node, in either order. -/
def properties (r : Reading) : Except Fault (Properties × Reading) := do
  match ← r.next with
  | .anchor a =>
    let r := r.tail
    match ← r.next with
    | .tag h s =>
      let tag ← r.tagName h s
      pure ({ anchor := some a, tag := some tag }, r.tail)
    | _ => pure ({ anchor := some a }, r)
  | .tag h s =>
    let r := r.tail
    match ← r.next with
    | .anchor a =>
      let tag ← r.tagName h s
      pure ({ anchor := some a, tag := some tag }, r.tail)
    | _ =>
      let tag ← r.tagName h s
      pure ({ tag := some tag }, r)
  | _ => pure ({}, r)

/-- Adds a node under an anchor, which must be new. -/
def add (r : Reading) (anchor : Option String) (n : Node) : Except Fault (NodeId × Reading) :=
  let id := r.graph.size
  let graph := r.graph.push n
  match anchor with
  | none => .ok (id, { r with graph })
  | some a =>
    if (r.anchors.lookup a).isSome then .error .unreadable
    else .ok (id, { r with graph, anchors := (a, id) :: r.anchors })

/-- Adds what stands for a node that is not written. -/
def addEmpty (r : Reading) : NodeId × Reading := (r.graph.size, { r with graph := r.graph.push .empty })

/-- Gives a node its parts. -/
def complete (r : Reading) (id : NodeId) (c : Content) : Reading :=
  { r with graph := r.graph.setContent id c }

end Reading

/-- The tag of a scalar: only plain ones without a tag, and those with the tag that leaves it open, get it
from their text. -/
def scalarTag (tag : Option String) (plain : Bool) (text : String) : Tag :=
  match tag with
  | none => if plain then .ofPlain text else .text
  | some name => if name = "!" then .ofPlain text else .ofName name

/-- The tag of a collection. -/
def collectionTag (tag : Option String) (usual : Tag) : Tag :=
  match tag with
  | none => usual
  | some name => if name = "!" then usual else .ofName name

/-- How a sequence that begins with a token is written. -/
inductive SequenceForm
  | flow
  | block
  | indentless

/-- What a node is, as the token after its properties tells. In a block, block collections may stand; as part
of a mapping, items without indentation. -/
inductive Shape
  | scalar (text : String) (plain : Bool)
  | sequence (form : SequenceForm)
  | mapping (isFlow : Bool)
  | missing

def shapeOf (block indentless : Bool) : Token → Shape
  | .scalar text plain => .scalar text plain
  | .flowSequenceStart => .sequence .flow
  | .flowMappingStart => .mapping true
  | .blockSequenceStart => if block then .sequence .block else .missing
  | .blockMappingStart => if block then .mapping false else .missing
  | .blockEntry => if indentless then .sequence .indentless else .missing
  | _ => .missing

mutual

def readNode (block indentless : Bool) : Nat → Read NodeId
  | 0, _ => .error .unreadable
  | fuel + 1, r => do
    match ← r.next with
    | .alias name =>
      match r.anchors.lookup name with
      | some id => pure (id, r.tail)
      | none => .error .unreadable
    | _ =>
      let (p, r) ← r.properties
      let t ← r.next
      match shapeOf block indentless t with
      | .scalar text plain => r.tail.add p.anchor ⟨scalarTag p.tag plain text, .scalar text⟩
      | .sequence form =>
        let (id, r) ← r.add p.anchor ⟨collectionTag p.tag .sequence, .sequence []⟩
        let (items, r) ← match form with
          | .flow => readFlowItems true fuel r.tail
          | .block => readBlockItems fuel r.tail
          | .indentless => readIndentless fuel r
        pure (id, r.complete id (.sequence items))
      | .mapping isFlow =>
        let (id, r) ← r.add p.anchor ⟨collectionTag p.tag .mapping, .mapping []⟩
        let (pairs, r) ← if isFlow then readFlowPairs true fuel r.tail else readBlockPairs fuel r.tail
        pure (id, r.complete id (.mapping pairs))
      | .missing =>
        if p.anchor.isSome || p.tag.isSome then r.add p.anchor ⟨scalarTag p.tag true "", .scalar ""⟩
        else .error .unreadable

/-- A node, or nothing before one of the tokens at which it may be missing. -/
def readOptional (block indentless : Bool) (stop : Reading.Stop) : Nat → Read NodeId
  | 0, _ => .error .unreadable
  | fuel + 1, r => do
    let t ← r.next
    if stop.holds t then pure r.addEmpty else readNode block indentless fuel r

/-- The items of a block, up to its end. -/
def readBlockItems : Nat → Read (List NodeId)
  | 0, _ => .error .unreadable
  | fuel + 1, r => do
    match ← r.next with
    | .blockEntry =>
      let (n, r) ← readOptional true false .blockItem fuel r.tail
      let (ns, r) ← readBlockItems fuel r
      pure (n :: ns, r)
    | .blockEnd => pure ([], r.tail)
    | _ => .error .unreadable

/-- Items without indentation of their own. -/
def readIndentless : Nat → Read (List NodeId)
  | 0, _ => .error .unreadable
  | fuel + 1, r => do
    match ← r.next with
    | .blockEntry =>
      let (n, r) ← readOptional true false .indentlessItem fuel r.tail
      let (ns, r) ← readIndentless fuel r
      pure (n :: ns, r)
    | _ => pure ([], r)

/-- The value after a colon, or nothing if there is no colon. -/
def readPairValue (block : Bool) (stop : Reading.Stop) : Nat → Read NodeId
  | 0, _ => .error .unreadable
  | fuel + 1, r => do
    match ← r.next with
    | .value => readOptional block block stop fuel r.tail
    | _ => pure r.addEmpty

/-- The pairs of a block, up to its end. -/
def readBlockPairs : Nat → Read (List (NodeId × NodeId))
  | 0, _ => .error .unreadable
  | fuel + 1, r => do
    match ← r.next with
    | .key =>
      let (k, r) ← readOptional true true .pair fuel r.tail
      let (v, r) ← readPairValue true .pair fuel r
      let (ps, r) ← readBlockPairs fuel r
      pure ((k, v) :: ps, r)
    | .blockEnd => pure ([], r.tail)
    | _ => .error .unreadable

/-- The items of a flow sequence, up to its end; all but the first follow a comma. A key makes an item a
mapping of one pair. -/
def readFlowItems (first : Bool) : Nat → Read (List NodeId)
  | 0, _ => .error .unreadable
  | fuel + 1, r => do
    match first, ← r.next with
    | _, .flowSequenceEnd => pure ([], r.tail)
    | false, .flowEntry => readFlowItem fuel r.tail
    | false, _ => .error .unreadable
    | true, _ => readFlowItem fuel r

/-- An item of a flow sequence and those after it, or its end after a comma. -/
def readFlowItem : Nat → Read (List NodeId)
  | 0, _ => .error .unreadable
  | fuel + 1, r => do
    match ← r.next with
    | .flowSequenceEnd => pure ([], r.tail)
    | .key =>
      let (id, r) ← r.add none ⟨.mapping, .mapping []⟩
      let (k, r) ← readOptional false false .flowPairKey fuel r.tail
      let (v, r) ← readPairValue false .flowPairValue fuel r
      let r := r.complete id (.mapping [(k, v)])
      let (ns, r) ← readFlowItems false fuel r
      pure (id :: ns, r)
    | _ =>
      let (n, r) ← readNode false false fuel r
      let (ns, r) ← readFlowItems false fuel r
      pure (n :: ns, r)

/-- The pairs of a flow mapping, up to its end; all but the first follow a comma. -/
def readFlowPairs (first : Bool) : Nat → Read (List (NodeId × NodeId))
  | 0, _ => .error .unreadable
  | fuel + 1, r => do
    match first, ← r.next with
    | _, .flowMappingEnd => pure ([], r.tail)
    | false, .flowEntry => readFlowPair fuel r.tail
    | false, _ => .error .unreadable
    | true, _ => readFlowPair fuel r

/-- A pair of a flow mapping and those after it, or its end after a comma; a node that is no key has no
value. -/
def readFlowPair : Nat → Read (List (NodeId × NodeId))
  | 0, _ => .error .unreadable
  | fuel + 1, r => do
    match ← r.next with
    | .flowMappingEnd => pure ([], r.tail)
    | .key =>
      let (k, r) ← readOptional false false .flowPairKey fuel r.tail
      let (v, r) ← readPairValue false .flowPairValue fuel r
      let (ps, r) ← readFlowPairs false fuel r
      pure ((k, v) :: ps, r)
    | _ =>
      let (k, r) ← readNode false false fuel r
      let (v, r) := r.addEmpty
      let (ps, r) ← readFlowPairs false fuel r
      pure ((k, v) :: ps, r)

end

/-- The beginnings of tags that need no instruction. -/
def usualHandles : List (String × String) := [("!", "!"), ("!!", Tag.start)]

/-- Reads the instructions before a document: at most one version, which must be a first one, and handles
that are not given twice. -/
def readInstructions (version : Bool) (handles : List (String × String)) :
    List Token → Except Fault (List (String × String) × List Token)
  | .instruction (.version major _) :: ts =>
    if version || major != 1 then .error .unreadable else readInstructions true handles ts
  | .instruction (.tag handle start) :: ts =>
    if (handles.lookup handle).isSome then .error .unreadable
    else readInstructions version ((handle, start) :: handles) ts
  | .instruction .other :: ts => readInstructions version handles ts
  | ts => .ok (handles ++ usualHandles, ts)

/-- Only marks of ends may follow a document. A second one is refused, but not before its instructions and its
first mark have been looked at. -/
def requireFinished : List Token → Except Fault Unit
  | .streamEnd :: _ => .ok ()
  | .documentEnd :: ts => requireFinished ts
  | ts => do
    let (_, after) ← readInstructions false [] ts
    let _ ← nextToken after
    .error .unreadable

/-- A graph and the node that the document begins with. -/
structure Rooted where
  graph : Graph
  root : NodeId

def readRoot (r : Reading) : Except Fault Rooted := do
  let (root, r) ← readNode true false (4 * r.tokens.length + 4) r
  requireFinished r.tokens
  pure ⟨r.graph, root⟩

/-- What stands behind the mark that begins a document; it may be nothing. -/
def readContent (handles : List (String × String)) (ts : List Token) : Except Fault Rooted := do
  match ← nextToken ts with
  | .instruction _ | .documentStart | .documentEnd | .streamEnd =>
    requireFinished ts
    pure ⟨#[.empty], 0⟩
  | _ => readRoot { tokens := ts, handles }

/-- The one document of a text, or nothing in an empty one. -/
def readTokens (ts : List Token) : Except Fault (Option Rooted) := do
  match ← nextToken ts with
  | .streamEnd => pure none
  | .instruction _ | .documentStart =>
    let (handles, ts) ← readInstructions false [] ts
    match ← nextToken ts with
    | .documentStart => some <$> readContent handles (ts.drop 1)
    | _ => .error .unreadable
  | _ => some <$> readRoot { tokens := ts, handles := usualHandles }

end ProgramFacts.Yaml
