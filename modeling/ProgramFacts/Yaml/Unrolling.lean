import ProgramFacts.Yaml.Construction

/-!
# Documents of objects

Objects hold one another by number. An object that holds nothing without end becomes a document at once, shared
by all that hold it. Of the others documents are made in rounds, each a level deeper than the one before.
-/

namespace ProgramFacts.Yaml

/-- The label of a pair in a list of pairs, different from those of all nodes. -/
def pairLabel (size id position : Nat) : Nat := size * (position + 1) + id

namespace Object

/-- The numbers of the objects that an object holds. -/
def parts : Object → List NodeId
  | .scalar _ | .set _ => []
  | .list items => items
  | .pairs items => items.flatMap fun p => [p.1, p.2]
  | .mapping es => es.map (·.2)

/-- The document of an object, given those of its parts and what to make of a pair at a position. -/
def document (part : NodeId → Document) (pair : Nat → Document → Document) : Object → Document
  | .scalar k => .scalar k.scalar
  | .set members => .set members
  | .list items => .list (items.map part)
  | .pairs items => .list (items.mapIdx fun i p => pair i (.tuple [part p.1, part p.2]))
  | .mapping es => .mapping (es.map fun e => (e.1, part e.2))

end Object

/-- Documents of objects, as far as they are known. -/
abbrev Documents := Array (Option Document)

/-- The document of an object whose parts all have one. -/
def settle? (known : Documents) (o : Object) : Option Document :=
  if o.parts.all fun p => (known.getD p none).isSome then
    some (o.document (fun p => (known.getD p none).getD .endless) fun _ d => d)
  else none

/-- Gives documents to the objects of a list whose parts all have one; the others are left. -/
def settleRound (known : Documents) : List (NodeId × Object) → Documents × List (NodeId × Object)
  | [] => (known, [])
  | (id, o) :: rest =>
    match settle? known o with
    | some d => settleRound (known.setIfInBounds id (some d)) rest
    | none =>
      let (known, left) := settleRound known rest
      (known, (id, o) :: left)

/-- Gives documents to all objects that hold nothing without end. -/
def settleAll : Nat → Documents → List (NodeId × Object) → Documents × List (NodeId × Object)
  | 0, known, left => (known, left)
  | fuel + 1, known, left =>
    let (known, after) := settleRound known left
    if after.length = left.length then (known, after) else settleAll fuel known after

/-- The documents of objects that hold something without end, one level deeper than those given. -/
def deepen (known : Documents) (left : List (NodeId × Object)) : Documents :=
  let size := known.size
  left.foldl (fun deeper (id, o) =>
    let part (p : NodeId) : Document := (known.getD p none).getD .endless
    deeper.setIfInBounds id
      (some (.knot id (o.document part fun i d => .knot (pairLabel size id i) d)))) known

/-- How many times a reader may come by an object that holds itself. -/
def turns : Nat := 8

/-- The document of the object with a number. -/
def unroll (objects : Array (Option Object)) (root : NodeId) : Document :=
  let all := objects.toList.zipIdx.filterMap fun (o, i) => o.map fun o => (i, o)
  let (known, left) := settleAll (objects.size + 1) (Array.replicate objects.size none) all.reverse
  let deep := (List.range (turns * (left.length + 1))).foldl (fun ds _ => deepen ds left) known
  if left.isEmpty then (known.getD root none).getD .endless else (deep.getD root none).getD .endless

end ProgramFacts.Yaml
