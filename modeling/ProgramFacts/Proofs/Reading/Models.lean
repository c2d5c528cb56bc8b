import ProgramFacts.Model.Reading.Programs
import ProgramFacts.Proofs.Reading.Contracts
import ProgramFacts.Proofs.UpperCase

/-!
# The contracts of the readers of declarations and programs

Declarations, directives, modules, packages and programs are read field by field. Each reader keeps its contract because
the readers of its fields do: the result meets what the document meets, and a fault is blamed on the node that has it.
-/

namespace ProgramFacts

variable {q : Demands}

/-! ## The recurring parts of declarations -/

section Fields

variable {es : Entries}

theorem Entries.readNotes_ends (place : Place) (met : (Document.mapping es).meets q = true) :
    Ends (fun as => as.all (·.meets q) = true) (Blamed place (.mapping es)) (es.readNotes place) :=
  readEach_ends place "annotations" met fun x _ => readNote_reads q x

theorem Entries.readTypeEach_ends (place : Place) (name : String) (met : (Document.mapping es).meets q = true) :
    Ends (fun ts => ts.all TypeExpr.isLoadable = true) (Blamed place (.mapping es))
      (es.readEach readType place name) :=
  readEach_ends place name met fun x _ => readType_reads q x

theorem Entries.readTypeAt_ends (place : Place) (name : String) (met : (Document.mapping es).meets q = true) :
    Ends (fun t => t.isLoadable = true) (Blamed place (.mapping es)) (es.readTypeAt place name) := by
  unfold readTypeAt
  apply (readNode_ends place es name).bind
  intro d found
  exact reads_under place met found (readType_reads q d)

/-- The type under a name; nothing and null stand for none. -/
def Entries.readTypeOrNone (es : Entries) (place : Place) (name : String) : Except Fault (Option TypeExpr) :=
  match es.getNull name with
  | .scalar .null => .ok none
  | d => some <$> readType (place.field name) d

theorem Entries.readTypeOrNone_ends (place : Place) (name : String) (met : (Document.mapping es).meets q = true) :
    Ends (fun t => t.all TypeExpr.isLoadable = true) (Blamed place (.mapping es)) (es.readTypeOrNone place name) := by
  unfold readTypeOrNone getNull
  cases found : es.get? name with
  | none => rfl
  | some d =>
    rw [Option.getD_some]
    split
    · rfl
    · exact (reads_under place met found (readType_reads q d)).map fun _ fine => fine

end Fields

theorem readTypeParameter_reads (d : Document) : Reads q readTypeParameter (TypeParameter.meets q) d := by
  intro met place
  unfold readTypeParameter
  split
  · rfl
  · apply mapping_ends met
    intro es met
    apply (Entries.readText_ends place es (by decide)).bind
    intro name _
    apply (Entries.readTypeEach_ends place "bounds" met).bind
    intro bounds boundsMeet
    apply (Entries.readNotes_ends place met).bind
    intro annotations annotationsMeet
    show TypeParameter.meets q { name, bounds, annotations } = true
    rw [TypeParameter.meets, boundsMeet, annotationsMeet, Bool.and_self]

theorem readParameter_reads (d : Document) : Reads q readParameter (Parameter.meets q) d := by
  intro met place
  apply mapping_ends met
  intro es met
  apply (Entries.readNode_ends place es "type").bind
  intro node found
  apply (Entries.readText_ends place es (by decide)).bind
  intro name _
  apply (Entries.reads_under place met found (readType_reads q node)).bind
  intro type typeMeets
  apply (Entries.readTexts_ends place "modifiers" met).bind
  intro modifiers _
  apply (Entries.readNotes_ends place met).bind
  intro annotations annotationsMeet
  show Parameter.meets q { name, type, modifiers, annotations } = true
  rw [Parameter.meets, typeMeets, annotationsMeet, Bool.and_self]

theorem readComponent_reads (d : Document) : Reads q readComponent (RecordComponent.meets q) d := by
  intro met place
  apply mapping_ends met
  intro es met
  apply (Entries.readNode_ends place es "type").bind
  intro node found
  apply (Entries.readText_ends place es (by decide)).bind
  intro name _
  apply (Entries.reads_under place met found (readType_reads q node)).bind
  intro type typeMeets
  apply (Entries.readNotes_ends place met).bind
  intro annotations annotationsMeet
  show RecordComponent.meets q { name, type, annotations } = true
  rw [RecordComponent.meets, typeMeets, annotationsMeet, Bool.and_self]

/-! ## Declarations -/

section Declarations

variable {es : Entries} {kind : String}

theorem readVariable_ends (place : Place) (met : (Document.mapping es).meets q = true)
    (known : kind ∈ variableKinds) :
    Ends (fun v => v.meets q = true) (Blamed place (.mapping es)) (readVariable kind place es) := by
  have doc := Entries.doc_of_meets met
  unfold readVariable
  apply (Entries.readNode_ends place es "type").bind
  intro node found
  apply (Entries.readText_ends place es (by decide)).bind
  intro name _
  apply (Entries.reads_under place met found (readType_reads q node)).bind
  intro type typeMeets
  apply (Entries.readTexts_ends place "modifiers" met).bind
  intro modifiers _
  apply (Entries.readNotes_ends place met).bind
  intro annotations annotationsMeet
  show Variable.meets q { kind, name, type, modifiers, annotations, doc := es.getNull "doc" } = true
  simp only [Variable.meets, known, typeMeets, annotationsMeet, doc, decide_true, Bool.and_self]

theorem readExecutable_eq (kind : String) (place : Place) (es : Entries) :
    readExecutable kind place es = (do
      let name ← es.readText place "name"
      let modifiers ← es.readTexts place "modifiers"
      let typeParameters ← es.readEach readTypeParameter place "type_parameters"
      let returnType ← es.readTypeOrNone place "returns"
      let parameters ← es.readEach readParameter place "parameters"
      let thrownTypes ← es.readEach readType place "throws"
      let annotations ← es.readNotes place
      pure { kind, name, modifiers, typeParameters, returnType := returnType.getD (.noType "void"), parameters,
             thrownTypes, annotations, doc := es.getNull "doc" }) := by
  unfold readExecutable Entries.readTypeOrNone
  cases es.getNull "returns" with
  | scalar s => cases s <;> rfl
  | _ => simp only [bind_map_left, Option.getD_some]

theorem readExecutable_ends (place : Place) (met : (Document.mapping es).meets q = true)
    (known : kind ∈ executableKinds) :
    Ends (fun e => e.meets q = true) (Blamed place (.mapping es)) (readExecutable kind place es) := by
  have doc := Entries.doc_of_meets met
  rw [readExecutable_eq]
  apply (Entries.readText_ends place es (by decide)).bind
  intro name _
  apply (Entries.readTexts_ends place "modifiers" met).bind
  intro modifiers _
  apply (Entries.readEach_ends place "type_parameters" met fun x _ => readTypeParameter_reads x).bind
  intro typeParameters typeParametersMeet
  apply (Entries.readTypeOrNone_ends place "returns" met).bind
  intro returnType returnTypeMeets
  apply (Entries.readEach_ends place "parameters" met fun x _ => readParameter_reads x).bind
  intro parameters parametersMeet
  apply (Entries.readTypeEach_ends place "throws" met).bind
  intro thrownTypes thrownTypesMeet
  apply (Entries.readNotes_ends place met).bind
  intro annotations annotationsMeet
  have returnsMeet : (returnType.getD (.noType "void")).isLoadable = true := by
    cases returnType with
    | none => rfl
    | some t => exact returnTypeMeets
  show Executable.meets q { kind, name, modifiers, typeParameters, returnType := _, parameters, thrownTypes,
                            annotations, doc := es.getNull "doc" } = true
  simp only [Executable.meets, known, typeParametersMeet, returnsMeet, parametersMeet, thrownTypesMeet,
    annotationsMeet, doc, decide_true, Bool.and_self]

theorem readTypeHead_eq (kind : String) (place : Place) (es : Entries) (members : Except Fault (List Declaration)) :
    readTypeHead kind place es members = (do
      let name ← es.readText place "name"
      let modifiers ← es.readTexts place "modifiers"
      let typeParameters ← es.readEach readTypeParameter place "type_parameters"
      let superclass ← es.readTypeOrNone place "extends"
      let interfaces ← es.readEach readType place "implements"
      let permitted ← es.readTexts place "permits"
      let components ← es.readEach readComponent place "components"
      let ds ← members
      let annotations ← es.readNotes place
      pure (.ofType { kind, name, modifiers, typeParameters, superclass, interfaces, permitted, components,
                      annotations, doc := es.getNull "doc" } ds)) := by
  unfold readTypeHead Entries.readTypeOrNone
  cases es.getNull "extends" with
  | scalar s => cases s <;> rfl
  | _ => rfl

theorem readTypeHead_ends (place : Place) (met : (Document.mapping es).meets q = true) (known : isTypeKind kind = true)
    {members : Except Fault (List Declaration)}
    (ends : Ends (fun ds => ds.all (Declaration.meets q) = true) (Blamed place (.mapping es)) members) :
    Ends (fun d => d.meets q = true) (Blamed place (.mapping es)) (readTypeHead kind place es members) := by
  have doc := Entries.doc_of_meets met
  rw [readTypeHead_eq]
  apply (Entries.readText_ends place es (by decide)).bind
  intro name _
  apply (Entries.readTexts_ends place "modifiers" met).bind
  intro modifiers _
  apply (Entries.readEach_ends place "type_parameters" met fun x _ => readTypeParameter_reads x).bind
  intro typeParameters typeParametersMeet
  apply (Entries.readTypeOrNone_ends place "extends" met).bind
  intro superclass superclassMeets
  apply (Entries.readTypeEach_ends place "implements" met).bind
  intro interfaces interfacesMeet
  apply (Entries.readTexts_ends place "permits" met).bind
  intro permitted _
  apply (Entries.readEach_ends place "components" met fun x _ => readComponent_reads x).bind
  intro components componentsMeet
  apply ends.bind
  intro ds membersMeet
  apply (Entries.readNotes_ends place met).bind
  intro annotations annotationsMeet
  show (Declaration.ofType { kind, name, modifiers, typeParameters, superclass, interfaces, permitted, components,
                             annotations, doc := es.getNull "doc" } ds).meets q = true
  simp only [Declaration.meets, Declaration.allMeet_eq_all, TypeHead.meets, known, typeParametersMeet, superclassMeets,
    interfacesMeet, componentsMeet, annotationsMeet, membersMeet, doc, Bool.and_self]

end Declarations

theorem readDeclarations_eq (place : Place) (i : Nat) (ds : List Document) :
    readDeclarations place i ds = readItems readDeclaration place i ds := by
  induction ds generalizing i with
  | nil => rw [readDeclarations, readItems]
  | cons d ds ih =>
    rw [readDeclarations, readItems]
    simp only [ih]

theorem readDeclarationList_eq (place : Place) (d : Document) :
    readDeclarationList place d = readList readDeclaration place d := by
  fun_induction readList readDeclaration place d with
  | case1 => rw [readDeclarationList]
  | case2 ds => rw [readDeclarationList, readDeclarations_eq]
  | case3 l d ih => rw [readDeclarationList, ih]
  | case4 d given notList notKnot => rw [readDeclarationList] <;> assumption

theorem readMembersUnder_eq (place : Place) (name : String) (es : Entries) :
    readMembersUnder place name es = es.readEach readDeclaration place name := by
  induction es with
  | nil => rfl
  | cons e es ih =>
    rw [readMembersUnder, ih, readDeclarationList_eq]
    simp only [Entries.readEach, Entries.getNull, Entries.get?]
    split <;> rfl

theorem readDeclaration_bare (place : Place) (d : Document) :
    readDeclaration place d = readDeclaration place d.bare := by
  fun_induction Document.bare d with
  | case1 l d ih => rw [readDeclaration, ih]
  | case2 d => rfl

/-- The kind decides between executables, variables and types. -/
theorem readDeclaration_mapping_ends {es : Entries} (met : (Document.mapping es).meets q = true)
    (reads : ∀ x, sizeOf x < sizeOf es → Reads q readDeclaration (Declaration.meets q) x) (place : Place) :
    Ends (fun d => d.meets q = true) (Blamed place (.mapping es)) (readDeclaration place (.mapping es)) := by
  rw [readDeclaration, readMembersUnder_eq]
  apply (Entries.readText_ends place es (by decide)).bind
  intro word _
  by_cases executable : Text.upper word ∈ executableKinds
  · simp only [executable, if_true]
    exact (readExecutable_ends place met executable).bind fun _ fine => fine
  · by_cases var : Text.upper word ∈ variableKinds
    · simp only [executable, var, if_true, if_false]
      exact (readVariable_ends place met var).bind fun _ fine => fine
    · simp only [executable, var, if_false]
      have known : isTypeKind (Text.upper word) = true := by
        simp only [isTypeKind, Text.upper_upper, executable, var, not_false_eq_true, decide_true, Bool.and_self]
      exact readTypeHead_ends place met known (Entries.readEach_ends place "members" met reads)

theorem readDeclaration_reads (d : Document) : Reads q readDeclaration (Declaration.meets q) d := by
  induction d using Document.induction_on_size with
  | step d ih =>
    intro met place
    have whole := Document.meets_bare met
    have smaller := d.sizeOf_bare_le
    rw [readDeclaration_bare]
    cases shape : d.bare with
    | mapping es =>
      rw [shape] at whole smaller
      rw [Document.mapping.sizeOf_spec] at smaller
      apply Document.bare_ends shape
      apply readDeclaration_mapping_ends whole
      intro x below
      apply ih
      omega
    | knot l x => exact absurd shape (d.bare_ne_knot l x)
    | _ => exact Document.blamed_notMapping shape fun _ => Document.noConfusion

/-! ## Modules, packages and programs -/

/-- Whether a directive is of the kind at the given place in the order of the kinds, and as demanded. -/
def Directive.isRanked (q : Demands) (n : Nat) (d : Directive) : Bool := d.rank == n && d.meets q

theorem readRequires_reads (d : Document) : Reads q readRequires (Directive.isRanked q 0) d := by
  intro met place
  unfold readRequires
  split
  · rfl
  · apply mapping_ends met
    intro es met
    apply (Entries.readText_ends place es (by decide)).bind
    intro name _
    apply (Entries.readTexts_ends place "modifiers" met).bind
    intro modifiers _
    apply (Entries.readNotes_ends place met).bind
    intro annotations annotationsMeet
    exact annotationsMeet

theorem readExports_reads (d : Document) : Reads q readExports (Directive.isRanked q 1) d := by
  intro met place
  unfold readExports
  split
  · rfl
  · apply mapping_ends met
    intro es met
    apply (Entries.readText_ends place es (by decide)).bind
    intro package _
    apply (Entries.readTexts_ends place "to" met).bind
    intro targets _
    apply (Entries.readNotes_ends place met).bind
    intro annotations annotationsMeet
    exact annotationsMeet

theorem readProvides_reads (d : Document) : Reads q readProvides (Directive.isRanked q 3) d := by
  intro met place
  apply mapping_ends met
  intro es met
  apply (Entries.readTypeAt_ends place "service" met).bind
  intro service serviceMeets
  apply (Entries.readTypeEach_ends place "with" met).bind
  intro implementations implementationsMeet
  apply (Entries.readNotes_ends place met).bind
  intro annotations annotationsMeet
  show Directive.isRanked q 3 (.provides service implementations annotations) = true
  simp only [Directive.isRanked, Directive.rank, Directive.meets, serviceMeets, implementationsMeet, annotationsMeet,
    beq_self_eq_true, Bool.and_self]

theorem Directive.meets_of_isRanked {n : Nat} {ds : List Directive} (h : ds.all (isRanked q n) = true) :
    (∀ d ∈ ds, d.rank = n) ∧ ds.all (meets q) = true := by
  have both : ∀ d ∈ ds, d.rank = n ∧ d.meets q = true := by
    intro d there
    have ranked := List.all_eq_true.1 h d there
    rw [isRanked, Bool.and_eq_true, beq_iff_eq] at ranked
    exact ranked
  exact ⟨fun d there => (both d there).1, List.all_eq_true.2 fun d there => (both d there).2⟩

/-- Directives of one kind followed by directives of later kinds are in order. -/
theorem Directive.pairwise_append {n : Nat} {as bs : List Directive} (first : ∀ a ∈ as, a.rank = n)
    (later : ∀ b ∈ bs, n ≤ b.rank) (order : bs.Pairwise fun a b => a.rank ≤ b.rank) :
    (as ++ bs).Pairwise fun a b => a.rank ≤ b.rank := by
  rw [List.pairwise_append]
  refine ⟨?_, order, ?_⟩
  · apply List.pairwise_of_forall_mem_list
    intro a there b also
    exact Nat.le_of_eq ((first a there).trans (first b also).symm)
  · intro a there b also
    rw [first a there]
    exact later b also

/-- Directives that are read kind after kind are in order. -/
theorem Directive.pairwise_kinds {rs xs us ps : List Directive} (requires : ∀ d ∈ rs, d.rank = 0)
    (exports : ∀ d ∈ xs, d.rank = 1) (uses : ∀ d ∈ us, d.rank = 2) (provides : ∀ d ∈ ps, d.rank = 3) :
    (rs ++ xs ++ us ++ ps).Pairwise fun a b => a.rank ≤ b.rank := by
  rw [List.append_assoc, List.append_assoc]
  have fourth : (ps ++ []).Pairwise fun a b : Directive => a.rank ≤ b.rank :=
    pairwise_append provides (fun _ impossible => absurd impossible List.not_mem_nil) .nil
  rw [List.append_nil] at fourth
  have third := pairwise_append uses (fun d there => by rw [provides d there]; decide) fourth
  have second : (xs ++ (us ++ ps)).Pairwise fun a b => a.rank ≤ b.rank := by
    apply pairwise_append exports _ third
    intro d there
    rcases List.mem_append.1 there with u | p
    · rw [uses d u]
      decide
    · rw [provides d p]
      decide
  exact pairwise_append requires (fun d _ => Nat.zero_le d.rank) second

theorem readModule_reads (d : Document) : Reads q readModule (Module.meets q) d := by
  intro met place
  apply mapping_ends met
  intro es met
  apply (Entries.readEach_ends place "requires" met fun x _ => readRequires_reads x).bind
  intro requires requiresMeet
  apply (Entries.readEach_ends place "exports" met fun x _ => readExports_reads x).bind
  intro exports exportsMeet
  apply (Entries.readTypeEach_ends place "uses" met).bind
  intro uses usesMeet
  apply (Entries.readEach_ends place "provides" met fun x _ => readProvides_reads x).bind
  intro provides providesMeet
  apply (Entries.readText_ends place es (by decide)).bind
  intro name _
  apply (Entries.readTexts_ends place "modifiers" met).bind
  intro modifiers _
  apply (Entries.readTexts_ends place "packages" met).bind
  intro packages _
  show Module.meets q { name, modifiers, directives := requires ++ exports ++ uses.map .uses ++ provides,
                        packages } = true
  obtain ⟨requiresRank, requiresMeet⟩ := Directive.meets_of_isRanked requiresMeet
  obtain ⟨exportsRank, exportsMeet⟩ := Directive.meets_of_isRanked exportsMeet
  obtain ⟨providesRank, providesMeet⟩ := Directive.meets_of_isRanked providesMeet
  have usesRank : ∀ d ∈ uses.map Directive.uses, d.rank = 2 := by
    intro d there
    obtain ⟨t, -, rfl⟩ := List.mem_map.1 there
    rfl
  have usesMeet : (uses.map Directive.uses).all (Directive.meets q) = true := by
    rw [List.all_map]
    exact usesMeet
  have order := Directive.pairwise_kinds requiresRank exportsRank usesRank providesRank
  simp only [Module.meets, order, List.all_append, requiresMeet, exportsMeet, usesMeet, providesMeet, decide_true,
    Bool.and_self]

theorem readPackage_reads (d : Document) : Reads q readPackage (Package.meets q) d := by
  intro met place
  apply mapping_ends met
  intro es met
  have doc := Entries.doc_of_meets met
  apply (Entries.readText_ends place es (by decide)).bind
  intro name _
  apply (Entries.readEach_ends place "members" met fun x _ => readDeclaration_reads x).bind
  intro members membersMeet
  apply (Entries.readNotes_ends place met).bind
  intro annotations annotationsMeet
  show Package.meets q { name, members, annotations, doc := es.getNull "doc" } = true
  simp only [Package.meets, membersMeet, annotationsMeet, doc, Bool.and_self]

theorem readProgramAt_reads (d : Document) : Reads q readProgramAt (Program.meets q) d := by
  intro met place
  apply mapping_ends met
  intro es met
  apply (Entries.readEach_ends place "modules" met fun x _ => readModule_reads x).bind
  intro modules modulesMeet
  apply (Entries.readEach_ends place "packages" met fun x _ => readPackage_reads x).bind
  intro packages packagesMeet
  show Program.meets q { modules, packages } = true
  rw [Program.meets, modulesMeet, packagesMeet, Bool.and_self]

/-- A program that was read meets what its document meets. -/
theorem Program.meets_of_readProgram {d : Document} {p : Program} (read : readProgram d = .ok p)
    (met : d.meets q = true) : p.meets q = true := by
  have ends := readProgramAt_reads d met {}
  rw [← readProgram, read] at ends
  exact ends

theorem Demands.meets_nothing (d : Document) : d.meets {} = true := by
  rw [Document.meets, List.all_eq_true]
  intro node _
  cases node with
  | scalar s => cases s <;> rfl
  | mapping es => simp [Document.answers]
  | _ => rfl

/-- A fault of reading a program is blamed on its document. -/
theorem blamed_of_readProgram {d : Document} {f : Fault} (failed : readProgram d = .error f) : Blamed {} d f := by
  have ends := readProgramAt_reads d (Demands.meets_nothing d) {}
  rw [← readProgram, failed] at ends
  exact ends

end ProgramFacts
