import ProgramFacts.Proofs.Reading.Models
import ProgramFacts.Proofs.Writable

/-!
# Bare names and their long forms

Where a document may give a bare name for a directive, a type parameter, a type or an annotation, it may also give the
mapping that the name stands for. Which nodes these are is told by what a node is read as (`Role`): the role of a
mapping and its entries give the roles of what stands under its keys. The long form of a document has the mapping in
place of every bare name, all the way down.

Readers make the same of a document and of its long form. For each reader this is one lemma (`Keeps`) that follows from
those of the readers of its fields; types, values and declarations hold nodes of their own kind, and theirs go by the
size of the document.
-/

namespace ProgramFacts

/-- What a node of a document is read as. -/
inductive Role
  | program
  | module
  | requires
  | exports
  | provides
  | package
  | declaration
  | typeParameter
  | parameter
  | component
  | type
  | note
  | arguments
  | value
  /-- A list of nodes that are read alike. -/
  | each (item : Role)
  /-- Taken as it is, as a text or as documentation, or not looked at. -/
  | plain

/-- The mapping with one key that a bare name stands for. -/
def Document.spelled (key name : String) : Document := .mapping [(.text key, .text name)]

/-- In upper case, the kind that a declaration gives. -/
def Entries.kind? (es : Entries) : Option String :=
  match es.getNull "kind" with
  | .scalar .null => none
  | d => d.asText?.map Text.upper

namespace Role

/-- The long form of a bare name. -/
def longForm? (name : String) : Role → Option Document
  | .requires => some (.spelled "module" name)
  | .exports => some (.spelled "package" name)
  | .typeParameter | .note => some (.spelled "name" name)
  | .type => some (
    if name ∈ primitiveNames then .spelled "primitive" name
    else if name = "void" then .spelled "no_type" name
    else .spelled "declared" name)
  | _ => none

def annotations : String × Role := ("annotations", .each .note)

/-- The keys of a declaration of a kind whose values are neither texts nor documentation. -/
def declarationFields (kind : String) : List (String × Role) :=
  if kind ∈ executableKinds then
    [("type_parameters", .each .typeParameter), ("returns", .type), ("parameters", .each .parameter),
      ("throws", .each .type), annotations]
  else if kind ∈ variableKinds then [("type", .type), annotations]
  else
    [("type_parameters", .each .typeParameter), ("extends", .type), ("implements", .each .type),
      ("components", .each .component), ("members", .each .declaration), annotations]

/-- A wildcard of no kind has no bound. -/
def boundFields : Document → List (String × Role)
  | .scalar .null => []
  | _ => [("bound", .type)]

/-- The first of the keys tells the form of a type. -/
def typeFields (es : Entries) : List (String × Role) :=
  match typeKeys.find? es.has with
  | some "declared" => [("arguments", .each .type)]
  | some "array" => [("array", .type)]
  | some "wildcard" => boundFields (es.getNull "wildcard")
  | _ => []

def valueFields (es : Entries) : List (String × Role) :=
  match valueKeys.find? es.has with
  | some "annotation" => [("annotation", .note)]
  | some "type" => [("type", .type)]
  | _ => []

/-- The keys of a mapping under which nodes are read that are neither texts nor documentation. -/
def fields (es : Entries) : Role → List (String × Role)
  | .program => [("modules", .each .module), ("packages", .each .package)]
  | .module =>
    [("requires", .each .requires), ("exports", .each .exports), ("uses", .each .type), ("provides", .each .provides)]
  | .requires | .exports => [annotations]
  | .provides => [("service", .type), ("with", .each .type), annotations]
  | .package => [("members", .each .declaration), annotations]
  | .declaration => (es.kind?.map declarationFields).getD []
  | .typeParameter => [("bounds", .each .type), annotations]
  | .parameter | .component => [("type", .type), annotations]
  | .type => typeFields es
  | .note => [("arguments", .arguments)]
  | .value => valueFields es
  | .arguments | .each _ | .plain => []

/-- What is read under the other keys: arguments are values, whatever their names. -/
def others : Role → Role
  | .arguments => .value
  | _ => .plain

/-- What is read under a key of a mapping. -/
def under (es : Entries) (r : Role) : Scalar → Role
  | .text name => ((r.fields es).lookup name).getD r.others
  | _ => r.others

/-- What the items of a list are read as. -/
def item : Role → Role
  | .each r => r
  | .value => .value
  | _ => .plain

end Role

namespace Document

def isScalar : Document → Bool
  | .scalar _ => true
  | _ => false

mutual

/-- The document with the long form in place of every bare name. What is in a knot is a collection, never a name. -/
def longForm (r : Role) : Document → Document
  | .scalar (.text name) => (r.longForm? name).getD (.text name)
  | .list ds => .list (longForms r.item ds)
  | .mapping es => .mapping (longEntries (r.under es) es)
  | .knot l d => .knot l (if d.isScalar then d else d.longForm r)
  | d => d

def longForms (r : Role) : List Document → List Document
  | [] => []
  | d :: ds => d.longForm r :: longForms r ds

def longEntries (role : Scalar → Role) : List (Scalar × Document) → List (Scalar × Document)
  | [] => []
  | (k, d) :: es => (k, d.longForm (role k)) :: longEntries role es

end

theorem longForms_eq_map (r : Role) (ds : List Document) : longForms r ds = ds.map (longForm r) := by
  induction ds with
  | nil => rfl
  | cons d ds ih => rw [longForms, ih, List.map_cons]

theorem longEntries_eq_map (role : Scalar → Role) (es : Entries) :
    longEntries role es = es.map fun e => (e.1, e.2.longForm (role e.1)) := by
  induction es with
  | nil => rfl
  | cons e es ih => rw [longEntries, ih, List.map_cons]

end Document

theorem Entries.sizeOf_lt_of_mem {es : Entries} {e : Scalar × Document} (there : e ∈ es) : sizeOf e.2 < sizeOf es := by
  have inList := List.sizeOf_lt_of_mem there
  have inPair : sizeOf e = 1 + sizeOf e.1 + sizeOf e.2 := Prod.mk.sizeOf_spec e.1 e.2
  omega

/-- The entries of the long form of a mapping. -/
def Entries.longForm (r : Role) (es : Entries) : Entries := Document.longEntries (r.under es) es

namespace Document

theorem longForm_list (r : Role) (ds : List Document) :
    (Document.list ds).longForm r = .list (ds.map (longForm r.item)) := by
  rw [longForm, longForms_eq_map]

theorem longForm_mapping (r : Role) (es : Entries) : (Document.mapping es).longForm r = .mapping (es.longForm r) := by
  rw [longForm]
  rfl

theorem longForm_knot (r : Role) (l : Nat) (d : Document) :
    (Document.knot l d).longForm r = .knot l (if d.isScalar then d else d.longForm r) := by
  rw [longForm]

/-- What holds of a collection if it holds of all that is in it holds of all documents. -/
@[elab_as_elim]
theorem induction_on_content {P : Document → Prop} (scalar : ∀ s, P (.scalar s))
    (list : ∀ ds, (∀ x ∈ ds, P x) → P (.list ds)) (mapping : ∀ es : Entries, (∀ e ∈ es, P e.2) → P (.mapping es))
    (knot : ∀ l d, P d → P (.knot l d)) (tuple : ∀ ds, P (.tuple ds)) (set : ∀ ss, P (.set ss)) (endless : P .endless)
    (d : Document) : P d := by
  induction d using induction_on_size with
  | step d ih =>
    cases d with
    | scalar s => exact scalar s
    | tuple ds => exact tuple ds
    | set ss => exact set ss
    | endless => exact endless
    | knot l d => exact knot l d (ih d (by rw [Document.knot.sizeOf_spec]; omega))
    | list ds =>
      apply list
      intro x there
      have smaller := List.sizeOf_lt_of_mem there
      exact ih x (by rw [Document.list.sizeOf_spec]; omega)
    | mapping es =>
      apply mapping
      intro e there
      have smaller := Entries.sizeOf_lt_of_mem there
      exact ih e.2 (by rw [Document.mapping.sizeOf_spec]; omega)

/-- What is taken as it is stays as it is. -/
theorem longForm_plain (d : Document) : d.longForm .plain = d := by
  induction d using induction_on_content with
  | scalar s => cases s <;> rfl
  | tuple ds => rfl
  | set ss => rfl
  | endless => rfl
  | knot l d ih => rw [longForm_knot, ih, ite_self]
  | list ds ih =>
    have same : ds.map (longForm Role.plain.item) = ds := (List.map_congr_left ih).trans (List.map_id' ds)
    rw [longForm_list, same]
  | mapping es ih =>
    have same : ∀ e ∈ es, (e.1, e.2.longForm (Role.plain.under es e.1)) = e := by
      intro e there
      have plain : Role.plain.under es e.1 = .plain := by cases e.1 <;> rfl
      rw [plain, ih e there]
    rw [longForm_mapping, Entries.longForm, longEntries_eq_map, List.map_congr_left same, List.map_id']

end Document

namespace Entries

variable {r : Role} {es : Entries} {name : String}

theorem get?_longForm (r : Role) (es : Entries) (name : String) :
    (es.longForm r).get? name = (es.get? name).map (Document.longForm (r.under es (.text name))) := by
  have each : ∀ (role : Scalar → Role) (es : Entries),
      get? (Document.longEntries role es) name = (es.get? name).map (Document.longForm (role (.text name))) := by
    intro role es
    induction es with
    | nil => rfl
    | cons e es ih =>
      rw [Document.longEntries, get?, get?, ih]
      split
      · next same => rw [same, Option.map_some]
      · rfl
  exact each (r.under es) es

theorem has_longForm (r : Role) (es : Entries) : (es.longForm r).has = es.has := by
  funext name
  rw [has, has, get?_longForm, Option.isSome_map]

/-- What is taken as it is under a name is still there. -/
theorem get?_longForm_plain (plain : r.under es (.text name) = .plain) : (es.longForm r).get? name = es.get? name := by
  rw [get?_longForm, plain, funext Document.longForm_plain, Option.map_id']

theorem getNull_longForm_plain (plain : r.under es (.text name) = .plain) :
    (es.longForm r).getNull name = es.getNull name := by
  rw [getNull, getNull, get?_longForm_plain plain]

theorem longForm_of_plain (plain : ∀ k, r.under es k = .plain) : es.longForm r = es := by
  rw [longForm, Document.longEntries_eq_map, funext plain]
  simp [Document.longForm_plain]

end Entries

namespace Role

variable {es : Entries} {name : String}

/-- The kind of a declaration is a text, whichever it is. -/
theorem under_kind (es : Entries) : declaration.under es (.text "kind") = .plain := by
  rw [under, fields]
  cases es.kind? with
  | none => rfl
  | some kind =>
    rw [Option.map_some, Option.getD_some, declarationFields]
    split
    · rfl
    · split <;> rfl

theorem boundFields_of_given {kind : Document} (given : kind ≠ .null) : boundFields kind = [("bound", .type)] := by
  unfold boundFields
  split
  · exact absurd rfl given
  · rfl

theorem under_type (es : Entries) (other : name ∉ ["arguments", "array", "bound"]) :
    type.under es (.text name) = .plain := by
  have lookup : (typeFields es).lookup name = none := by
    simp only [List.mem_cons, List.not_mem_nil, or_false, not_or] at other
    unfold typeFields boundFields
    split
    · simp [other]
    · simp [other]
    · split <;> simp [other]
    · rfl
  rw [under, fields, lookup]
  rfl

theorem under_value (es : Entries) (other : name ∉ ["annotation", "type"]) :
    value.under es (.text name) = .plain := by
  have lookup : (valueFields es).lookup name = none := by
    simp only [List.mem_cons, List.not_mem_nil, or_false, not_or] at other
    unfold valueFields
    split <;> simp [other]
  rw [under, fields, lookup]
  rfl

/-- A mapping and its long form are read alike. -/
theorem fields_longForm (r : Role) (es : Entries) : r.fields (es.longForm r) = r.fields es := by
  cases r with
  | declaration =>
    have kind : (es.longForm .declaration).kind? = es.kind? := by
      rw [Entries.kind?, Entries.kind?, Entries.getNull_longForm_plain (under_kind es)]
    rw [fields, fields, kind]
  | type =>
    have plain : type.under es (.text "wildcard") = .plain := under_type es (by decide)
    have wildcard := Entries.getNull_longForm_plain plain
    rw [fields, fields, typeFields, typeFields, Entries.has_longForm, wildcard]
  | value => rw [fields, fields, valueFields, valueFields, Entries.has_longForm]
  | _ => rfl

theorem under_longForm (r : Role) (es : Entries) (k : Scalar) : r.under (es.longForm r) k = r.under es k := by
  cases k <;> simp only [under, fields_longForm]

end Role

/-- In a document that is read as the first role, a node is read as the second. -/
inductive Occurs : Role → Document → Role → Document → Prop
  | here (r : Role) (d : Document) : Occurs r d r d
  | item {r s : Role} {ds : List Document} {d node : Document} (there : d ∈ ds) (later : Occurs r.item d s node) :
      Occurs r (.list ds) s node
  | entry {r s : Role} {es : Entries} {k : Scalar} {d node : Document} (there : (k, d) ∈ es)
      (later : Occurs (r.under es k) d s node) : Occurs r (.mapping es) s node
  | knot {r s : Role} {l : Nat} {d node : Document} (collection : d.isScalar = false) (later : Occurs r d s node) :
      Occurs r (.knot l d) s node

theorem Occurs.scalar {r s : Role} {k : Scalar} {node : Document} (h : Occurs r (.scalar k) s node) :
    s = r ∧ node = .scalar k := by
  cases h
  exact ⟨rfl, rfl⟩

/-- A long form holds the name under a key where a text is read. -/
theorem Role.spelled_of_longForm? {r : Role} {name : String} {d : Document} (long : r.longForm? name = some d) :
    ∃ key, d = .spelled key name ∧ r.under [(.text key, .text name)] (.text key) = .plain := by
  cases r with
  | requires => exact ⟨"module", (Option.some.inj long).symm, rfl⟩
  | exports => exact ⟨"package", (Option.some.inj long).symm, rfl⟩
  | typeParameter => exact ⟨"name", (Option.some.inj long).symm, rfl⟩
  | note => exact ⟨"name", (Option.some.inj long).symm, rfl⟩
  | type =>
    rw [longForm?, Option.some_inj] at long
    subst long
    split
    · exact ⟨"primitive", rfl, under_type _ (by decide)⟩
    · split
      · exact ⟨"no_type", rfl, under_type _ (by decide)⟩
      · exact ⟨"declared", rfl, under_type _ (by decide)⟩
  | _ => cases long

/-- What becomes a scalar was that scalar. -/
theorem Document.eq_of_longForm_eq_scalar {r : Role} {d : Document} {k : Scalar} (h : d.longForm r = .scalar k) :
    d = .scalar k := by
  cases d with
  | scalar s =>
    cases s with
    | text name =>
      rw [longForm] at h
      cases long : r.longForm? name with
      | none => rwa [long] at h
      | some d =>
        obtain ⟨key, rfl, -⟩ := Role.spelled_of_longForm? long
        rw [long] at h
        cases h
    | _ => exact h
  | _ => cases h

/-- No bare name is left in a long form. -/
theorem longForm?_of_occurs {s : Role} {name : String} (d : Document) : ∀ {r : Role},
    Occurs r (d.longForm r) s (.text name) → s.longForm? name = none := by
  induction d using Document.induction_on_content with
  | scalar k =>
    intro r h
    cases k with
    | text bare =>
      rw [Document.longForm] at h
      cases long : r.longForm? bare with
      | none =>
        rw [long] at h
        obtain ⟨rfl, same⟩ := h.scalar
        cases same
        exact long
      | some d =>
        obtain ⟨key, rfl, plain⟩ := Role.spelled_of_longForm? long
        rw [long, Option.getD_some] at h
        cases h with
        | entry there later =>
          obtain ⟨rfl, rfl⟩ : _ = Scalar.text key ∧ _ = Document.text bare := by simpa using there
          rw [plain] at later
          obtain ⟨rfl, -⟩ := later.scalar
          rfl
    | _ => cases h
  | list ds ih =>
    intro r h
    rw [Document.longForm_list] at h
    cases h with
    | item there later =>
      obtain ⟨d, member, rfl⟩ := List.mem_map.1 there
      exact ih d member later
  | mapping es ih =>
    intro r h
    rw [Document.longForm_mapping] at h
    cases h with
    | entry there later =>
      rw [Entries.longForm, Document.longEntries_eq_map] at there
      obtain ⟨⟨k, d⟩, member, same⟩ := List.mem_map.1 there
      cases same
      rw [Role.under_longForm] at later
      exact ih (k, d) member later
  | knot l d ih =>
    intro r h
    rw [Document.longForm_knot] at h
    cases h with
    | knot collection later =>
      split at later
      · next scalar => simp_all
      · exact ih later
  | tuple ds => intro r h; cases h
  | set ss => intro r h; cases h
  | endless => intro r h; cases h

/-- Directives, types, type parameters and annotations have long forms, at any depth; kinds, names and values that are
texts have none. -/
example :
    let m (es : List (String × Document)) : Document := .mapping (es.map fun e => (.text e.1, e.2))
    let t := Document.text
    (m [("modules", .list [m [("name", t "x"), ("requires", .list [t "a"]), ("exports", .list [t "b"]),
        ("uses", .list [t "C"]), ("provides", .list [m [("service", t "D"), ("with", .list [t "E"])]])]]),
      ("packages", .list [m [("annotations", .list [t "N"]), ("members", .list [m [("kind", t "class"),
        ("type_parameters", .list [t "T"]), ("extends", t "F"), ("implements", .list [t "G"]),
        ("components", .list [m [("type", m [("array", t "int")])]]),
        ("members", .list [m [("kind", t "method"), ("returns", t "void"), ("throws", .list [t "H"]),
          ("annotations", .list [m [("name", t "A"), ("arguments", m [("v", .list [t "s", m [("annotation", t "B")],
            m [("type", t "I")]])])]])]])]])]])]).longForm .program =
    m [("modules", .list [m [("name", t "x"), ("requires", .list [m [("module", t "a")]]),
        ("exports", .list [m [("package", t "b")]]), ("uses", .list [m [("declared", t "C")]]),
        ("provides", .list [m [("service", m [("declared", t "D")]), ("with", .list [m [("declared", t "E")]])]])]]),
      ("packages", .list [m [("annotations", .list [m [("name", t "N")]]), ("members", .list [m [("kind", t "class"),
        ("type_parameters", .list [m [("name", t "T")]]), ("extends", m [("declared", t "F")]),
        ("implements", .list [m [("declared", t "G")]]),
        ("components", .list [m [("type", m [("array", m [("primitive", t "int")])])]]),
        ("members", .list [m [("kind", t "method"), ("returns", m [("no_type", t "void")]),
          ("throws", .list [m [("declared", t "H")]]),
          ("annotations", .list [m [("name", t "A"), ("arguments", m [("v", .list [t "s",
            m [("annotation", m [("name", t "B")])], m [("type", m [("declared", t "I")])]])])]])]])]])]])] := by
  rfl

end ProgramFacts
