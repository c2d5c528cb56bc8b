import ProgramFacts.Proofs.Reading.Models
import ProgramFacts.Proofs.Writable

/-!
# Faults of reading name their places

A fault of reading a program names a place, and the steps of that place lead from the root of the document to a node
that has the problem. Two faults name none: a text cannot be had of an integer with too many digits, and a collection
that holds itself may be read without end. Each of them arises only if there is a node to blame for it.
-/

namespace ProgramFacts

/-- A place is written as its root followed by its steps. -/
theorem Place.text_eq (p : Place) : p.text = p.root ++ String.join (p.steps.map Step.text) := by
  obtain ⟨root, steps⟩ := p
  unfold text
  induction steps generalizing root with
  | nil => rw [List.foldl_nil, List.map_nil, String.join_nil, String.append_empty]
  | cons s steps ih => rw [List.foldl_cons, ih, List.map_cons, String.join_cons, String.append_assoc]

/-- **Faults name their places.** Reading ends with a program or with a fault. A fault that names a place writes it as
the root, `$`, followed by steps that lead from the document to a node, and that node has the problem which the message
states. Of the other two faults, one arises only where an integer has too many digits, and one only where a collection
holds itself. -/
theorem readProgram_faults_found (d : Document) :
    match readProgram d with
    | .ok _ => True
    | .error (.at place problem) => ∃ steps node, d.Reaches steps node ∧ problem.Describes node ∧
        place.text = "$" ++ String.join (steps.map Step.text)
    | .error .oversized => ∃ steps node, d.Reaches steps node ∧ node.isWritable = false
    | .error .endless => ∃ steps node, d.Reaches steps node ∧ node.bare = .endless := by
  cases read : readProgram d with
  | ok p => trivial
  | error f =>
    obtain ⟨steps, node, reached, describes⟩ := blamed_of_readProgram read
    cases f with
    | «at» place problem =>
      obtain ⟨rfl, has⟩ := describes
      refine ⟨steps, node, reached, has, ?_⟩
      rw [Place.text_eq]
      rfl
    | oversized => exact ⟨steps, node, reached, describes⟩
    | endless => exact ⟨steps, node, reached, describes⟩

/-- A method without a name, in a type in a package. -/
example : (readProgram (.mapping [(.text "packages", .list [.mapping [(.text "name", .text "p"),
    (.text "members", .list [.mapping [(.text "kind", .text "class"), (.text "name", .text "A"),
      (.text "members", .list [.mapping [(.text "kind", .text "method")]])]])]])])).mapError Fault.message =
    .error "$.packages[0].members[0].members[0]: missing required key 'name'" := by
  rfl

/-- A document with one package, named by an integer. -/
def Document.packageNumbered (n : Int) : Document :=
  .mapping [(.text "packages", .list [.mapping [(.text "name", .scalar (.integer n))]])]

theorem readProgram_packageNumbered {n : Int} (oversized : Numeral.isWritable n = false) :
    readProgram (.packageNumbered n) = .error .oversized := by
  have unnamed : (Document.scalar (.integer n)).readText = .error .oversized := by
    unfold Document.readText Document.asText?
    rw [Document.isWritable, Document.isWritableBelow, Scalar.isWritable, oversized]
    rfl
  simp [Document.packageNumbered, Document.null, readProgram, readProgramAt, readMapping, Entries.readEach,
    Entries.getNull, Entries.get?, readList, readItems, readPackage, Entries.readText, unnamed, bind, Except.bind]

/-- A package whose name is an integer with too many digits is a fault that names no place. -/
theorem readProgram_oversized_unplaced :
    readProgram (.packageNumbered Numeral.writableBound) = .error .oversized ∧
      ∀ place problem, Fault.oversized ≠ .at place problem :=
  ⟨readProgram_packageNumbered Numeral.not_isWritable_writableBound, fun _ _ => Fault.noConfusion⟩

end ProgramFacts
