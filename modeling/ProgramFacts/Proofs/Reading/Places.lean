import ProgramFacts.Model.Reading

/-!
# Places in documents and what is wrong there

Steps lead from a document down to its nodes: a key into a mapping, an index into a list. Knots take no step, so a node
is what stands inside its knots (`Document.bare`).

A problem describes a node that has it, and a fault is blamed on a document if its place is that of a node that has the
problem. Readers end either with what is wanted of them or with such a fault (`Ends`). Ends follow one another like the
readings that they are of, which is what the contracts of all readers are made of.
-/

namespace ProgramFacts

namespace Document

/-- What stands inside the knots around a document. -/
def bare : Document → Document
  | .knot _ d => d.bare
  | d => d

/-- The labels of the knots around a document, the innermost first. -/
def knots : Document → List Nat
  | .knot l d => d.knots ++ [l]
  | _ => []

theorem sizeOf_bare_le (d : Document) : sizeOf d.bare ≤ sizeOf d := by
  fun_induction bare d with
  | case1 l d ih =>
    have larger : sizeOf (Document.knot l d) = 1 + sizeOf l + sizeOf d := Document.knot.sizeOf_spec l d
    omega
  | case2 d => exact Nat.le_refl _

/-- What holds of a document if it holds of all smaller ones holds of all. -/
theorem induction_on_size {P : Document → Prop} (step : ∀ d, (∀ x, sizeOf x < sizeOf d → P x) → P d) (d : Document) :
    P d := by
  induction size : sizeOf d using Nat.strongRecOn generalizing d with
  | _ n ih =>
    subst size
    apply step
    intro x smaller
    exact ih (sizeOf x) smaller x rfl

/-- The steps lead from a document to a node. -/
inductive Reaches : Document → List Step → Document → Prop
  | here (d : Document) : Reaches d [] d
  | item {ds : List Document} {i : Nat} {d node : Document} {steps : List Step} (found : ds[i]? = some d)
      (later : Reaches d steps node) : Reaches (.list ds) (.index i :: steps) node
  | entry {es : Entries} {k : Scalar} {d node : Document} {steps : List Step} (found : (k, d) ∈ es)
      (later : Reaches d steps node) : Reaches (.mapping es) (.key k :: steps) node
  | knot {l : Nat} {d node : Document} {steps : List Step} (later : Reaches d steps node) :
      Reaches (.knot l d) steps node

/-- What is reached inside the knots of a document is reached from the document. -/
theorem Reaches.of_bare {d node : Document} {steps : List Step} (h : d.bare.Reaches steps node) :
    d.Reaches steps node := by
  fun_induction bare d with
  | case1 l d ih => exact .knot (ih h)
  | case2 d => exact h

end Document

/-! ## Problems and the nodes that have them -/

/-- The keys whose values are texts that must be there; null is none. -/
def namingKeys : List String := ["name", "kind", "module", "package", "constant"]

/-- The keys that tell the forms of types. -/
def typeKeys : List String := ["declared", "primitive", "array", "type_variable", "wildcard", "no_type", "other"]

/-- The keys that tell the forms of values. -/
def valueKeys : List String := ["char", "enum", "annotation", "type", "other"]

namespace Document

/-- The document is a mapping with such entries. -/
def IsMapping (d : Document) (holds : Entries → Prop) : Prop := ∃ es, d.bare = .mapping es ∧ holds es

/-- The document in a message that shows it from inside its own knots. -/
def shownInside (d : Document) : String := d.bare.shownBelow d.knots

end Document

/-- The problem is one that the node has. -/
def Problem.Describes (node : Document) : Problem → Prop
  | .notMapping kind => (∀ es, node.bare ≠ .mapping es) ∧ kind = node.kindName
  | .notList kind => (∀ ds, node.bare ≠ .list ds) ∧ node.bare ≠ .null ∧ kind = node.kindName
  | .missing key => node.IsMapping fun es =>
    es.get? key = none ∨ key ∈ namingKeys ∧ es.get? key = some .null
  | .unboundedWildcard shown => node.IsMapping fun es =>
    ∃ kind, es.get? "wildcard" = some kind ∧ kind ≠ .null ∧ es.get? "bound" = none ∧ shown = kind.shown
  | .unknownWildcard shown => node.IsMapping fun es =>
    ∃ kind, es.get? "wildcard" = some kind ∧ kind ∉ [.null, .text "extends", .text "super"] ∧ shown = kind.shown
  | .unknownType shown => node.IsMapping (fun es => ∀ key ∈ typeKeys, es.get? key = none) ∧
    shown = node.shownInside
  | .unknownValue shown => node.IsMapping (fun es => ∀ key ∈ valueKeys, es.get? key = none) ∧
    shown = node.shownInside

/-- The fault is one of the node at the place: a problem there, an integer in it with too many digits, or no end. -/
def Fault.Describes (place : Place) (node : Document) : Fault → Prop
  | .at p problem => p = place ∧ problem.Describes node
  | .oversized => node.isWritable = false
  | .endless => node.bare = .endless

/-- The place that steps lead to from a place. -/
def Place.along (p : Place) (steps : List Step) : Place := { p with steps := p.steps ++ steps }

theorem Place.along_nil (p : Place) : p.along [] = p := by
  unfold along
  rw [List.append_nil]

theorem Place.along_down (p : Place) (s : Step) (steps : List Step) :
    (p.down s).along steps = p.along (s :: steps) := by
  unfold along down
  rw [List.append_assoc]
  rfl

/-- The document at the place has a node with the fault. -/
def Blamed (place : Place) (d : Document) (f : Fault) : Prop :=
  ∃ steps node, d.Reaches steps node ∧ f.Describes (place.along steps) node

namespace Blamed

variable {place : Place} {d : Document} {f : Fault}

theorem here (h : f.Describes place d) : Blamed place d f := by
  refine ⟨[], d, .here d, ?_⟩
  rw [Place.along_nil]
  exact h

theorem item {ds : List Document} {i : Nat} (found : ds[i]? = some d) (h : Blamed (place.item i) d f) :
    Blamed place (.list ds) f := by
  obtain ⟨steps, node, reached, describes⟩ := h
  refine ⟨.index i :: steps, node, .item found reached, ?_⟩
  rw [← Place.along_down]
  exact describes

theorem entry {es : Entries} {k : Scalar} (found : (k, d) ∈ es) (h : Blamed (place.down (.key k)) d f) :
    Blamed place (.mapping es) f := by
  obtain ⟨steps, node, reached, describes⟩ := h
  refine ⟨.key k :: steps, node, .entry found reached, ?_⟩
  rw [← Place.along_down]
  exact describes

theorem of_bare (h : Blamed place d.bare f) : Blamed place d f := by
  obtain ⟨steps, node, reached, describes⟩ := h
  exact ⟨steps, node, reached.of_bare, describes⟩

end Blamed

/-! ## How readings end -/

/-- A reading ends with a result as it is wanted, or with a fault as it is allowed. -/
def Ends {α : Type} (wanted : α → Prop) (allowed : Fault → Prop) : Except Fault α → Prop
  | .ok a => wanted a
  | .error f => allowed f

namespace Ends

variable {α β : Type} {wanted : α → Prop} {next : β → Prop} {allowed : Fault → Prop} {x : Except Fault α}

theorem bind {k : α → Except Fault β} (first : Ends wanted allowed x)
    (later : ∀ a, wanted a → Ends next allowed (k a)) : Ends next allowed (x >>= k) := by
  cases x with
  | ok a => exact later a first
  | error f => exact first

theorem map {g : α → β} (first : Ends wanted allowed x) (later : ∀ a, wanted a → next (g a)) :
    Ends next allowed (g <$> x) := by
  cases x with
  | ok a => exact later a first
  | error f => exact first

theorem imp {looser : α → Prop} (h : Ends wanted allowed x) (results : ∀ a, wanted a → looser a) :
    Ends looser allowed x := by
  cases x with
  | ok a => exact results a h
  | error f => exact h

theorem imp_faults {wider : Fault → Prop} (h : Ends wanted allowed x) (faults : ∀ f, allowed f → wider f) :
    Ends wanted wider x := by
  cases x with
  | ok a => exact h
  | error f => exact faults f h

end Ends

end ProgramFacts
