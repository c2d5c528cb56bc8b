import ProgramFacts.Proofs.ScopeIsolation

/-!
# The signature of facts

Every name that compounds have in facts has one list of argument sorts (`signature`). A sort says which atoms, which
compounds and which lists may stand at a place. All facts that a walk writes and both facts of the index are of the
sorts that their keys call for, so that a reader of facts may rely on the number and the sorts of arguments, at every
depth, from the name alone.

Sorts are checked along the term (`hasSort`), never along the model: the check knows nothing of how facts are built.
-/

namespace ProgramFacts

/-! ## Sorts -/

/-- What may stand at a place in a fact. -/
inductive TermSort
  /-- Any atom. -/
  | atom
  /-- One of these atoms, or a compound with one of these names. -/
  | oneOf (atoms names : List String)
  /-- What a form of types is applied to: any atom, or a type. -/
  | operand
  /-- The value of an annotation's argument: any atom, a list of values, an annotation or a type. -/
  | value
  /-- A list of terms of one sort. -/
  | list (element : TermSort)

namespace TermSort

/-- A compound with this name. -/
abbrev named (name : String) : TermSort := .oneOf [] [name]

abbrev type : TermSort := .oneOf ["unknown_type"] ["declared_type", "type"]

/-- The forms of types that are not declared ones. -/
abbrev typeForm : TermSort :=
  .oneOf ["primitive", "array", "type_variable", "wildcard_extends", "wildcard_super", "wildcard_unbounded", "no_type"]
    []

/-- The superclass of a class, which may go without saying. -/
abbrev superclass : TermSort := .oneOf ["null"] ["extends"]

abbrev member : TermSort := .oneOf [] ["type_declaration", "method", "constructor", "field"]

abbrev typeFact : TermSort := .oneOf [] ["class", "interface", "enum", "annotation_type", "record"]

abbrev modifiers : TermSort := .list (named "modifier")

abbrev annotations : TermSort := .list (named "annotation")

abbrev typeParameters : TermSort := .list (named "type_parameter")

abbrev parameters : TermSort := .list (named "parameter")

abbrev throws : TermSort := .list (named "throws")

abbrev interfaces : TermSort := .list (named "implements")

def allowsAtom : TermSort → String → Bool
  | .atom, _ => true
  | .oneOf atoms _, v => atoms.contains v
  | .operand, _ => true
  | .value, _ => true
  | .list _, _ => false

/-- The names of the compounds of a sort. -/
def functors : TermSort → List String
  | .atom => []
  | .oneOf _ names => names
  | .operand => ["declared_type", "type"]
  | .value => ["annotation", "declared_type", "type"]
  | .list _ => []

/-- The sort of the elements, if there are lists of the sort. -/
def element? : TermSort → Option TermSort
  | .list s => some s
  | .value => some .value
  | _ => none

end TermSort

open TermSort in
/-- The sorts of the arguments of each name. -/
def signature : List (String × List TermSort) :=
  [("module", [.atom, modifiers, .list (named "requires"), .list (named "exports"), .list type,
      .list (named "provides"), .list .atom]),
    ("package_declaration", [.atom, .list (named "type_declaration")]),
    ("class", [.atom, .atom, modifiers, typeParameters, superclass, interfaces, .list .atom, .list member, annotations,
      .atom]),
    ("interface", [.atom, .atom, modifiers, typeParameters, interfaces, .list member, annotations,
      .list (named "declared_type"), .atom]),
    ("enum", [.atom, .atom, modifiers, interfaces, .list member, annotations, .atom]),
    ("annotation_type", [.atom, .atom, modifiers, annotations, .atom]),
    ("record", [.atom, .atom, modifiers, typeParameters, interfaces, .list (named "record_component"), .list member,
      annotations, .atom]),
    ("module_index", [.list .atom]),
    ("package_index", [.list .atom]),
    ("type_declaration", [.atom, .atom]),
    ("method", [.atom, modifiers, typeParameters, type, parameters, throws, annotations, .atom]),
    ("constructor", [.atom, modifiers, typeParameters, parameters, throws, annotations, .atom]),
    ("field", [.atom, modifiers, type, annotations, .atom]),
    ("requires", [.list .atom, .atom, annotations]),
    ("exports", [.atom, .list .atom, annotations]),
    ("provides", [type, .list type, annotations]),
    ("modifier", [.atom]),
    ("type_parameter", [.atom, .list type, annotations]),
    ("parameter", [.atom, type, modifiers, annotations]),
    ("throws", [type]),
    ("record_component", [.atom, type, annotations]),
    ("extends", [.atom, type]),
    ("implements", [.atom, type]),
    ("annotation", [.atom, .list (named "annotation_argument")]),
    ("annotation_argument", [.atom, .value]),
    ("declared_type", [.atom, .list type]),
    ("type", [typeForm, .operand])]

namespace Term

mutual

/-- Whether a term is of a sort, and so are, by the signature, all terms in it. -/
def hasSort : TermSort → Term → Bool
  | s, .atom v => s.allowsAtom v
  | s, .compound n ts =>
    s.functors.contains n &&
      match signature.lookup n with
      | some ss => haveSorts ss ts
      | none => false
  | s, .list ts =>
    match s.element? with
    | some e => allHaveSort e ts
    | none => false

/-- Whether there are as many terms as sorts, each of its sort. -/
def haveSorts : List TermSort → List Term → Bool
  | ss, [] => ss.isEmpty
  | [], _ :: _ => false
  | s :: ss, t :: ts => hasSort s t && haveSorts ss ts

def allHaveSort : TermSort → List Term → Bool
  | _, [] => true
  | s, t :: ts => hasSort s t && allHaveSort s ts

end

@[simp] theorem hasSort_atom (s : TermSort) (v : String) : (Term.atom v).hasSort s = s.allowsAtom v := by
  rw [hasSort]

@[simp] theorem haveSorts_nil : haveSorts [] [] = true := by
  rw [haveSorts, List.isEmpty_nil]

@[simp] theorem haveSorts_cons (s : TermSort) (ss : List TermSort) (t : Term) (ts : List Term) :
    haveSorts (s :: ss) (t :: ts) = (t.hasSort s && haveSorts ss ts) := by
  rw [haveSorts]

theorem allHaveSort_iff {s : TermSort} {ts : List Term} :
    allHaveSort s ts = true ↔ ∀ t ∈ ts, t.hasSort s = true := by
  induction ts with
  | nil => simp [allHaveSort]
  | cons t ts ih => simp [allHaveSort, ih]

theorem hasSort_list {s : TermSort} {ts : List Term} :
    (Term.list ts).hasSort (.list s) = true ↔ ∀ t ∈ ts, t.hasSort s = true := by
  rw [hasSort]
  exact allHaveSort_iff

theorem hasSort_compound {s : TermSort} {n : String} {ss : List TermSort} {ts : List Term} (allowed : n ∈ s.functors)
    (signed : signature.lookup n = some ss) (parts : haveSorts ss ts = true) :
    (Term.compound n ts).hasSort s = true := by
  rw [hasSort, signed]
  simp [allowed, parts]

theorem signed_of_hasSort {s : TermSort} {n : String} {ts : List Term} (h : (Term.compound n ts).hasSort s = true) :
    ∃ ss, signature.lookup n = some ss ∧ haveSorts ss ts = true := by
  rw [hasSort, Bool.and_eq_true] at h
  cases signed : signature.lookup n with
  | none => simp [signed] at h
  | some ss =>
    rw [signed] at h
    exact ⟨ss, rfl, h.2⟩

theorem length_of_haveSorts {ss : List TermSort} {ts : List Term} (h : haveSorts ss ts = true) :
    ts.length = ss.length := by
  induction ts generalizing ss with
  | nil =>
    rw [haveSorts, List.isEmpty_iff] at h
    simp [h]
  | cons t ts ih =>
    cases ss with
    | nil => simp [haveSorts] at h
    | cons s ss =>
      rw [haveSorts_cons, Bool.and_eq_true] at h
      simp [ih h.2]

/-- A sort that allows all that another one allows. -/
theorem hasSort_of_le {s s' : TermSort} (atoms : ∀ v, s.allowsAtom v = true → s'.allowsAtom v = true)
    (names : ∀ n ∈ s.functors, n ∈ s'.functors) (lists : ∀ e, s.element? = some e → s'.element? = some e) {t : Term}
    (h : t.hasSort s = true) : t.hasSort s' = true := by
  cases t with
  | atom v =>
    rw [hasSort_atom] at h ⊢
    exact atoms v h
  | compound n ts =>
    obtain ⟨ss, signed, parts⟩ := signed_of_hasSort h
    rw [hasSort, Bool.and_eq_true, List.contains_iff_mem] at h
    exact hasSort_compound (names n h.1) signed parts
  | list ts =>
    cases element : s.element? with
    | none => simp [hasSort, element] at h
    | some e =>
      rw [hasSort, element] at h
      rw [hasSort, lists e element]
      exact h

theorem operand_of_type {t : Term} (h : t.hasSort .type = true) : t.hasSort .operand = true := by
  refine hasSort_of_le ?_ ?_ ?_ h
  · exact fun _ _ => rfl
  · exact fun _ name => name
  · simp [TermSort.element?]

theorem value_of_type {t : Term} (h : t.hasSort .type = true) : t.hasSort .value = true := by
  refine hasSort_of_le ?_ ?_ ?_ h
  · exact fun _ _ => rfl
  · exact fun _ name => List.mem_cons_of_mem _ name
  · simp [TermSort.element?]

/-! ## Terms within terms -/

/-- Where a term stands in another one, at any depth. -/
inductive Occurs (u : Term) : Term → Prop
  | here : Occurs u u
  | inside {v t : Term} : v ∈ t.parts → Occurs u v → Occurs u t

theorem hasSort_of_mem_haveSorts {ss : List TermSort} {ts : List Term} (h : haveSorts ss ts = true) {t : Term}
    (member : t ∈ ts) : ∃ s, t.hasSort s = true := by
  induction ts generalizing ss with
  | nil => exact absurd member List.not_mem_nil
  | cons u ts ih =>
    cases ss with
    | nil => simp [haveSorts] at h
    | cons s ss =>
      rw [haveSorts_cons, Bool.and_eq_true] at h
      rcases List.mem_cons.1 member with rfl | later
      · exact ⟨s, h.1⟩
      · exact ih h.2 later

theorem hasSort_of_mem_parts {s : TermSort} {t : Term} (h : t.hasSort s = true) {v : Term} (part : v ∈ t.parts) :
    ∃ s', v.hasSort s' = true := by
  cases t with
  | atom _ => exact absurd part List.not_mem_nil
  | compound n ts =>
    obtain ⟨ss, -, parts⟩ := signed_of_hasSort h
    exact hasSort_of_mem_haveSorts parts part
  | list ts =>
    cases element : s.element? with
    | none => simp [hasSort, element] at h
    | some e =>
      rw [hasSort, element] at h
      exact ⟨e, allHaveSort_iff.1 h v part⟩

theorem hasSort_of_occurs {u t : Term} (within : Occurs u t) {s : TermSort} (h : t.hasSort s = true) :
    ∃ s', u.hasSort s' = true := by
  induction within generalizing s with
  | here => exact ⟨s, h⟩
  | inside part _ ih =>
    obtain ⟨s', sorted⟩ := hasSort_of_mem_parts h part
    exact ih sorted

/-- In a term that has a sort, every compound has its arguments by the signature, and an identifier for a name. -/
theorem signed_of_occurs {t : Term} {s : TermSort} (h : t.hasSort s = true) {n : String} {ts : List Term}
    (within : Occurs (.compound n ts) t) :
    ∃ ss, signature.lookup n = some ss ∧ ts.length = ss.length ∧ haveSorts ss ts = true ∧
      Atom.isIdentifier n.toList = true := by
  obtain ⟨s', sorted⟩ := hasSort_of_occurs within h
  obtain ⟨ss, signed, parts⟩ := signed_of_hasSort sorted
  have plain : ∀ e ∈ signature, Atom.isIdentifier e.1.toList = true := by decide
  obtain ⟨before, after, split, -⟩ := List.lookup_eq_some_iff.1 signed
  exact ⟨ss, signed, length_of_haveSorts parts, parts, plain (n, ss) (by simp [split])⟩

/-- The numbers of arguments at a glance. -/
example : signature.map (fun e => (e.1, e.2.length)) =
    [("module", 7), ("package_declaration", 2), ("class", 10), ("interface", 9), ("enum", 7), ("annotation_type", 5),
      ("record", 9), ("module_index", 1), ("package_index", 1), ("type_declaration", 2), ("method", 8),
      ("constructor", 7), ("field", 5), ("requires", 3), ("exports", 3), ("provides", 3), ("modifier", 1),
      ("type_parameter", 3), ("parameter", 4), ("throws", 1), ("record_component", 3), ("extends", 2),
      ("implements", 2), ("annotation", 2), ("annotation_argument", 2), ("declared_type", 2), ("type", 2)] := by
  decide

end Term

end ProgramFacts
