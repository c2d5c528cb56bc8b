import ProgramFacts.Model.Reading.Values
import ProgramFacts.Proofs.Reading.Demands

/-!
# The contracts of readers

Of a document that meets demands, a reader makes a part of a model that meets them too, or it ends with a fault that is
blamed on the document. This is its contract (`Reads`). It is proved here for what all readers share, for types, and for
annotations with their values.

The readers of nested parts are written out once for each kind of part, so that they end by recursion. Each of them is
the general reader of a list or of a field, taken at its kind of part.
-/

namespace ProgramFacts

/-- The reader keeps its contract at the document. -/
def Reads {α : Type} (q : Demands) (read : Reader α) (good : α → Bool) (d : Document) : Prop :=
  d.meets q = true → ∀ place, Ends (fun a => good a = true) (Blamed place d) (read place d)

namespace Document

variable {d : Document} {place : Place}

theorem bare_ne_knot (d : Document) (l : Nat) (x : Document) : d.bare ≠ .knot l x := by
  fun_induction bare d with
  | case1 l' d ih => exact ih
  | case2 d other => exact other l x

theorem knots_eq_nil (other : ∀ l x, d ≠ .knot l x) : d.knots = [] := by
  unfold knots
  split
  · next l x => exact absurd rfl (other l x)
  · rfl

theorem kindName_bare (d : Document) : d.bare.kindName = d.kindName := by
  fun_induction bare d with
  | case1 l d ih => rw [ih, kindName]
  | case2 d => rfl

/-- A document that is not of the kind that was wanted is to be blamed, also if it has no end. -/
theorem blamed_misfit {problem : String → Problem} (describes : (problem d.kindName).Describes d) :
    Blamed place d (d.bare.misfit place problem) := by
  have named : Blamed place d (.at place (problem d.bare.kindName)) := by
    rw [kindName_bare]
    exact .here ⟨rfl, describes⟩
  cases shape : d.bare with
  | endless => exact .here shape
  | knot l x => exact absurd shape (bare_ne_knot d l x)
  | _ =>
    rw [shape] at named
    exact named

theorem blamed_notMapping {x : Document} (shape : d.bare = x) (other : ∀ es, x ≠ .mapping es) :
    Blamed place d (x.misfit place .notMapping) := by
  subst shape
  apply blamed_misfit
  exact ⟨other, rfl⟩

theorem blamed_notList {x : Document} (shape : d.bare = x) (other : ∀ ds, x ≠ .list ds) (given : x ≠ .null) :
    Blamed place d (x.misfit place .notList) := by
  subst shape
  apply blamed_misfit
  exact ⟨other, given, rfl⟩

/-- Whoever shows a document from inside its knots blames it, or an integer in it. -/
theorem blamed_showing {problem : String → Problem} (describes : (problem d.shownInside).Describes d) :
    Blamed place d (d.bare.showing place problem d.knots) := by
  unfold showing
  split
  · exact .here ⟨rfl, describes⟩
  · next oversized =>
    apply Blamed.of_bare
    apply Blamed.here
    exact Bool.eq_false_iff.2 oversized

/-- What is read inside the knots of a document has its faults in the document. -/
theorem bare_ends {α : Type} {wanted : α → Prop} {x : Document} {r : Except Fault α} (shape : d.bare = x)
    (ends : Ends wanted (Blamed place x) r) : Ends wanted (Blamed place d) r := by
  subst shape
  exact ends.imp_faults fun _ => Blamed.of_bare

theorem readText_ends (place : Place) (d : Document) : Ends (fun _ => True) (Blamed place d) d.readText := by
  unfold readText asText?
  by_cases writable : d.isWritable = true
  · rw [if_pos writable]
    trivial
  · rw [if_neg writable]
    exact .here (Bool.eq_false_iff.2 writable)

end Document

/-! ## What all readers share -/

section Shared

variable {α : Type} {q : Demands} {read : Reader α} {good : α → Bool} {d : Document}

theorem readMapping_bare (place : Place) (d : Document) : readMapping place d = readMapping place d.bare := by
  fun_induction Document.bare d with
  | case1 l d ih => rw [readMapping, ih]
  | case2 d => rfl

theorem readMapping_ends (place : Place) (d : Document) :
    Ends (fun es => d.bare = .mapping es) (Blamed place d) (readMapping place d) := by
  rw [readMapping_bare]
  cases shape : d.bare with
  | mapping es => rfl
  | knot l x => exact absurd shape (d.bare_ne_knot l x)
  | _ => exact Document.blamed_notMapping shape fun _ => Document.noConfusion

/-- A reader of the entries of a mapping keeps the contract if it does so for all entries that there may be. -/
theorem mapping_ends {wanted : α → Prop} {place : Place} {body : Entries → Except Fault α} (met : d.meets q = true)
    (ends : ∀ es : Entries, (Document.mapping es).meets q = true →
      Ends wanted (Blamed place (.mapping es)) (body es)) :
    Ends wanted (Blamed place d) (readMapping place d >>= body) := by
  apply (readMapping_ends place d).bind
  intro es shape
  have whole := Document.meets_bare met
  rw [shape] at whole
  exact Document.bare_ends shape (ends es whole)

/-- The items of a list from some index on are read up to the first that has a fault. -/
theorem readItems_ends (place : Place) (before : List Document) {ds : List Document}
    (met : ∀ x ∈ ds, x.meets q = true) (reads : ∀ x ∈ ds, Reads q read good x) :
    Ends (fun as => as.all good = true) (Blamed place (.list (before ++ ds)))
      (readItems read place before.length ds) := by
  induction ds generalizing before with
  | nil => rfl
  | cons d ds ih =>
    rw [readItems]
    have found : (before ++ d :: ds)[before.length]? = some d := by simp
    have first := reads d List.mem_cons_self (met d List.mem_cons_self) (place.item before.length)
    apply (first.imp_faults fun f => Blamed.item found).bind
    intro a fine
    have rest := ih (before ++ [d]) (fun x there => met x (List.mem_cons_of_mem d there))
      (fun x there => reads x (List.mem_cons_of_mem d there))
    rw [List.length_append, List.append_assoc] at rest
    apply rest.bind
    intro as allFine
    show (a :: as).all good = true
    rw [List.all_cons, fine, allFine, Bool.and_self]

theorem readList_bare (place : Place) (d : Document) : readList read place d = readList read place d.bare := by
  fun_induction Document.bare d with
  | case1 l d ih => rw [readList, ih]
  | case2 d => rfl

theorem readList_ends (place : Place) (met : d.meets q = true)
    (reads : ∀ x, sizeOf x < sizeOf d → Reads q read good x) :
    Ends (fun as => as.all good = true) (Blamed place d) (readList read place d) := by
  have whole := Document.meets_bare met
  have smaller := d.sizeOf_bare_le
  rw [readList_bare]
  cases shape : d.bare with
  | list ds =>
    rw [shape] at whole smaller
    rw [Document.list.sizeOf_spec] at smaller
    apply Document.bare_ends shape
    apply readItems_ends place [] fun x => Document.meets_of_mem whole
    intro x there
    apply reads
    have := List.sizeOf_lt_of_mem there
    omega
  | scalar s =>
    cases s with
    | null => rfl
    | _ => exact Document.blamed_notList shape (fun _ => Document.noConfusion) (by simp [Document.null])
  | knot l x => exact absurd shape (d.bare_ne_knot l x)
  | _ => exact Document.blamed_notList shape (fun _ => Document.noConfusion) Document.noConfusion

end Shared

namespace Entries

variable {α : Type} {q : Demands} {read : Reader α} {good : α → Bool} {es : Entries} {name : String} {d : Document}

/-- What is read under a name has its faults there. -/
theorem under_ends {wanted : α → Prop} {place : Place} {x : Except Fault α} (found : es.get? name = some d)
    (ends : Ends wanted (Blamed (place.field name) d) x) : Ends wanted (Blamed place (.mapping es)) x := by
  apply ends.imp_faults
  intro f
  exact Blamed.entry (mem_of_get? found)

/-- The text of what stands under a name, in a mapping that knots may enclose. -/
theorem text_ends {place : Place} {whole : Document} (shape : whole.bare = .mapping es)
    (found : es.get? name = some d) : Ends (fun _ => True) (Blamed place whole) d.readText := by
  apply Document.bare_ends shape
  exact under_ends found (d.readText_ends _)

theorem meets_get? (met : (Document.mapping es).meets q = true) (found : es.get? name = some d) :
    d.meets q = true := Document.meets_under met (mem_of_get? found)

theorem readEach_ends (place : Place) (name : String) (met : (Document.mapping es).meets q = true)
    (reads : ∀ x, sizeOf x < sizeOf es → Reads q read good x) :
    Ends (fun as => as.all good = true) (Blamed place (.mapping es)) (es.readEach read place name) := by
  rw [readEach, getNull]
  cases found : es.get? name with
  | none => rfl
  | some d =>
    apply under_ends found
    apply readList_ends (place.field name) (meets_get? met found)
    intro x smaller
    exact reads x (Nat.lt_trans smaller (sizeOf_get?_lt found))

theorem readTexts_ends (place : Place) (name : String) (met : (Document.mapping es).meets q = true) :
    Ends (fun _ => True) (Blamed place (.mapping es)) (es.readTexts place name) := by
  have reads : ∀ x, sizeOf x < sizeOf es → Reads q (fun _ d => d.readText) (fun _ => true) x := by
    intro x _ _ place
    exact (x.readText_ends place).imp fun _ _ => rfl
  exact (readEach_ends place name met reads).imp fun _ _ => trivial

theorem readText_ends (place : Place) (es : Entries) (named : name ∈ namingKeys) :
    Ends (fun _ => True) (Blamed place (.mapping es)) (es.readText place name) := by
  have missing : es.get? name = none ∨ es.get? name = some .null →
      Blamed place (.mapping es) (.at place (.missing name)) := by
    intro nothing
    refine .here ⟨rfl, es, rfl, ?_⟩
    exact nothing.imp_right fun null => ⟨named, null⟩
  rw [readText, getNull]
  cases found : es.get? name with
  | none => exact missing (.inl found)
  | some d =>
    rw [Option.getD_some]
    split
    · exact missing (.inr found)
    · exact under_ends found (d.readText_ends _)

theorem readNode_ends (place : Place) (es : Entries) (name : String) :
    Ends (fun d => es.get? name = some d) (Blamed place (.mapping es)) (es.readNode place name) := by
  rw [readNode]
  cases found : es.get? name with
  | none => exact .here ⟨rfl, es, rfl, .inl found⟩
  | some d => exact rfl

/-- The node under a name, read by a reader that keeps its contract there. -/
theorem reads_under (place : Place) (met : (Document.mapping es).meets q = true) (found : es.get? name = some d)
    (reads : Reads q read good d) :
    Ends (fun a => good a = true) (Blamed place (.mapping es)) (read (place.field name) d) :=
  under_ends found (reads (meets_get? met found) _)

theorem readDescription_ends (place : Place) (es : Entries) :
    Ends (fun _ => True) (Blamed place (.mapping es)) es.readDescription := by
  rw [readDescription]
  cases found : es.get? "description" with
  | none => trivial
  | some d => exact under_ends found (d.readText_ends _)

/-- Whoever shows what stands under a name blames the mapping, or an integer under the name. -/
theorem blamed_showing {place : Place} {problem : String → Problem} (found : es.get? name = some d)
    (describes : (problem d.shown).Describes (.mapping es)) :
    Blamed place (.mapping es) (d.showing place problem []) := by
  unfold Document.showing
  split
  · exact .here ⟨rfl, describes⟩
  · next oversized =>
    apply Blamed.entry (mem_of_get? found)
    exact .here (Bool.eq_false_iff.2 oversized)

end Entries

/-! ## Types -/

theorem readTypes_eq (place : Place) (i : Nat) (ds : List Document) :
    readTypes place i ds = readItems readType place i ds := by
  induction ds generalizing i with
  | nil => rw [readTypes, readItems]
  | cons d ds ih =>
    rw [readTypes, readItems]
    simp only [ih]
    rfl

theorem readTypeList_eq (place : Place) (d : Document) : readTypeList place d = readList readType place d := by
  fun_induction readList readType place d with
  | case1 => rw [readTypeList]
  | case2 ds => rw [readTypeList, readTypes_eq]
  | case3 l d ih => rw [readTypeList, ih]
  | case4 d given notList notKnot => rw [readTypeList] <;> assumption

theorem readTypesUnder_eq (place : Place) (name : String) (es : Entries) :
    readTypesUnder place name es = es.readEach readType place name := by
  induction es with
  | nil => rfl
  | cons e es ih =>
    rw [readTypesUnder, ih, readTypeList_eq]
    simp only [Entries.readEach, Entries.getNull, Entries.get?]
    split <;> rfl

theorem readTypeUnder_eq (place : Place) (name : String) (es : Entries) :
    readTypeUnder place name es = (es.get? name).map (readType (place.field name)) := by
  induction es with
  | nil => rfl
  | cons e es ih =>
    rw [readTypeUnder, ih, Entries.get?]
    split <;> rfl

theorem readTypeIn_bare (labels : List Nat) (place : Place) (d : Document) :
    readTypeIn labels place d = readTypeIn (d.knots ++ labels) place d.bare := by
  fun_induction Document.bare d generalizing labels with
  | case1 l d ih => rw [readTypeIn, ih, Document.knots, List.append_assoc, List.singleton_append]
  | case2 d other => rw [Document.knots_eq_nil other, List.nil_append]

theorem TypeExpr.isLoadable_ofName (name : String) : (TypeExpr.ofName name).isLoadable = true := by
  unfold ofName
  split
  · rfl
  · split <;> rfl

section Wildcards

variable {place : Place} {es : Entries} {kind : Document}

/-- A wildcard of some kind that has no bound. -/
theorem blamed_unboundedWildcard (wildcard : es.get? "wildcard" = some kind) (given : kind ≠ .null)
    (unbound : es.get? "bound" = none) :
    Blamed place (.mapping es) (kind.showing place .unboundedWildcard []) := by
  apply Entries.blamed_showing wildcard
  exact ⟨es, rfl, kind, wildcard, given, unbound, rfl⟩

/-- A wildcard of no known kind. -/
theorem blamed_unknownWildcard (wildcard : es.get? "wildcard" = some kind) (given : kind ≠ .null)
    (notExtends : kind ≠ .text "extends") (notSuper : kind ≠ .text "super") :
    Blamed place (.mapping es) (kind.showing place .unknownWildcard []) := by
  have unknown : kind ∉ [.null, .text "extends", .text "super"] := by
    simp only [List.mem_cons, List.not_mem_nil, or_false, not_or]
    exact ⟨given, notExtends, notSuper⟩
  apply Entries.blamed_showing wildcard
  exact ⟨es, rfl, kind, wildcard, unknown, rfl⟩

end Wildcards

/-- The form of a type is that of the first of the keys that the mapping has. -/
theorem readTypeIn_mapping_ends {q : Demands} {d : Document} {es : Entries} (shape : d.bare = .mapping es)
    (met : (Document.mapping es).meets q = true)
    (reads : ∀ x, sizeOf x < sizeOf es → Reads q readType TypeExpr.isLoadable x) (place : Place) :
    Ends (fun t => t.isLoadable = true) (Blamed place d) (readTypeIn d.knots place (.mapping es)) := by
  rw [readTypeIn]
  simp only [readTypesUnder_eq, readTypeUnder_eq]
  cases declared : es.get? "declared" with
  | some x =>
    apply Document.bare_ends shape
    refine (Entries.under_ends declared (x.readText_ends _)).bind fun name _ => ?_
    refine (Entries.readEach_ends place "arguments" met reads).bind fun args fine => ?_
    show (TypeExpr.declared name args).isLoadable = true
    rw [TypeExpr.isLoadable, TypeExpr.areLoadable_eq_all]
    exact fine
  | none =>
  cases primitive : es.get? "primitive" with
  | some x => exact (Entries.text_ends shape primitive).map fun _ _ => rfl
  | none =>
  cases array : es.get? "array" with
  | some x =>
    apply Document.bare_ends shape
    have component := Entries.reads_under place met array (reads x (Entries.sizeOf_get?_lt array))
    refine component.bind fun t fine => ?_
    exact fine
  | none =>
  cases var : es.get? "type_variable" with
  | some x => exact (Entries.text_ends shape var).map fun _ _ => rfl
  | none =>
  cases wildcard : es.get? "wildcard" with
  | some x =>
    apply Document.bare_ends shape
    simp only [Option.map_none]
    split
    · rfl
    · next kind given same =>
      cases same
      have notNull : x ≠ .null := given
      cases bound : es.get? "bound" with
      | none => exact blamed_unboundedWildcard wildcard notNull bound
      | some b =>
        refine (Entries.reads_under place met bound (reads b (Entries.sizeOf_get?_lt bound))).bind fun t fine => ?_
        split
        · exact fine
        · exact fine
        · next notExtends notSuper => exact blamed_unknownWildcard wildcard notNull notExtends notSuper
    · next absent => cases absent
  | none =>
  cases noType : es.get? "no_type" with
  | some x => exact (Entries.text_ends shape noType).map fun _ _ => rfl
  | none =>
  cases other : es.get? "other" with
  | some x =>
    apply Document.bare_ends shape
    refine (Entries.under_ends other (x.readText_ends _)).bind fun kind _ => ?_
    exact (Entries.readDescription_ends place es).bind fun description _ => rfl
  | none =>
    have lacks : d.IsMapping fun es => ∀ key ∈ typeKeys, es.get? key = none := by
      refine ⟨es, shape, ?_⟩
      simp [typeKeys, declared, primitive, array, var, wildcard, noType, other]
    have blamed : Blamed place d (d.bare.showing place .unknownType d.knots) := Document.blamed_showing ⟨lacks, rfl⟩
    rw [shape] at blamed
    exact blamed

theorem readType_reads (q : Demands) (d : Document) : Reads q readType TypeExpr.isLoadable d := by
  induction d using Document.induction_on_size with
  | step d ih =>
    intro met place
    have whole := Document.meets_bare met
    have smaller := d.sizeOf_bare_le
    rw [readType, readTypeIn_bare, List.append_nil]
    cases shape : d.bare with
    | mapping es =>
      rw [shape] at whole smaller
      rw [Document.mapping.sizeOf_spec] at smaller
      apply readTypeIn_mapping_ends shape whole
      intro x below
      apply ih
      omega
    | scalar s =>
      cases s with
      | text s => exact TypeExpr.isLoadable_ofName s
      | _ => exact Document.blamed_notMapping shape fun _ => Document.noConfusion
    | knot l x => exact absurd shape (d.bare_ne_knot l x)
    | _ => exact Document.blamed_notMapping shape fun _ => Document.noConfusion

/-! ## Annotations and their values -/

theorem readValues_eq (place : Place) (i : Nat) (ds : List Document) :
    readValues place i ds = readItems readValue place i ds := by
  induction ds generalizing i with
  | nil => rw [readValues, readItems]
  | cons d ds ih =>
    rw [readValues, readItems]
    simp only [ih]
    rfl

theorem readNoteUnder_eq (place : Place) (name : String) (es : Entries) :
    readNoteUnder place name es = (es.get? name).map (readNote (place.field name)) := by
  induction es with
  | nil => rfl
  | cons e es ih =>
    rw [readNoteUnder, ih, Entries.get?]
    split <;> rfl

theorem readArgumentsUnder_eq (place : Place) (name : String) (es : Entries) :
    readArgumentsUnder place name es =
      match es.get? name with
      | none => .ok (.ok [])
      | some d => readArgumentMapping (place.field name) d := by
  induction es with
  | nil => rfl
  | cons e es ih =>
    rw [readArgumentsUnder, ih, Entries.get?]
    split <;> rfl

theorem readValueIn_bare (labels : List Nat) (place : Place) (d : Document) :
    readValueIn labels place d = readValueIn (d.knots ++ labels) place d.bare := by
  fun_induction Document.bare d generalizing labels with
  | case1 l d ih => rw [readValueIn, ih, Document.knots, List.append_assoc, List.singleton_append]
  | case2 d other => rw [Document.knots_eq_nil other, List.nil_append]

theorem readNote_bare (place : Place) (d : Document) :
    readNote place d = readNote place d.bare := by
  fun_induction Document.bare d with
  | case1 l d ih => rw [readNote, ih]
  | case2 d => rfl

theorem readArgumentMapping_bare (place : Place) (d : Document) :
    readArgumentMapping place d = readArgumentMapping place d.bare := by
  fun_induction Document.bare d with
  | case1 l d ih => rw [readArgumentMapping, ih]
  | case2 d => rfl

theorem Document.areEntriesWritable_eq_all (labels : List Nat) (es : Entries) :
    areEntriesWritable labels es = es.all fun e => e.1.isWritable && e.2.isWritableBelow labels := by
  induction es with
  | nil => rfl
  | cons e es ih => rw [areEntriesWritable, ih, List.all_cons]

/-- A mapping cannot be written if one of its keys cannot. -/
theorem Document.isWritable_of_key {es : Entries} {k : Scalar} {d : Document} (found : (k, d) ∈ es)
    (oversized : k.asText? = none) : (Document.mapping es).isWritable = false := by
  have unwritable : k.isWritable = false := by simpa [Scalar.asText?] using oversized
  rw [isWritable, isWritableBelow, areEntriesWritable_eq_all, List.all_eq_false]
  exact ⟨(k, d), found, by simp [unwritable]⟩

section Values

variable {q : Demands}

/-- Arguments whose names and values are as demanded. -/
def AsArguments (q : Demands) (vs : List (String × Value)) : Prop :=
  q.names (vs.map Prod.fst) = true ∧ Value.argumentsMeet q vs = true

theorem asArguments_nil (q : Demands) : AsArguments q [] := ⟨q.names_nil, rfl⟩

/-- Arguments are named by the keys of their mapping. -/
theorem readArguments_ends {whole es : Entries} (place : Place) (part : ∀ e ∈ es, e ∈ whole)
    (met : (Document.mapping whole).meets q = true) (reads : ∀ e ∈ es, Reads q readValue (Value.meets q) e.2) :
    Ends (fun vs => vs.map Prod.fst = es.map (fun e => e.1.asText) ∧ Value.argumentsMeet q vs = true)
      (Blamed place (.mapping whole)) (readArguments place es) := by
  induction es with
  | nil => exact ⟨rfl, rfl⟩
  | cons e es ih =>
    obtain ⟨k, d⟩ := e
    have found : (k, d) ∈ whole := part _ List.mem_cons_self
    rw [readArguments]
    cases written : k.asText? with
    | none => exact .here (Document.isWritable_of_key found written)
    | some name =>
      have named : k.asText = name := by
        unfold Scalar.asText? at written
        split at written
        · exact Option.some.inj written
        · cases written
      have first := reads (k, d) List.mem_cons_self (Document.meets_under met found) (place.down (.key k))
      refine (first.imp_faults fun f => Blamed.entry found).bind fun v fine => ?_
      have rest := ih (fun e there => part e (List.mem_cons_of_mem _ there))
        (fun e there => reads e (List.mem_cons_of_mem _ there))
      refine rest.bind fun vs others => ?_
      constructor
      · rw [List.map_cons, List.map_cons, others.1, named]
      · rw [Value.argumentsMeet, fine, others.2, Bool.and_self]

/-- What stands in the place of arguments is found to be a mapping first, and read later. -/
theorem readArgumentMapping_ends {d : Document} (place : Place) (met : d.meets q = true)
    (reads : ∀ x, sizeOf x < sizeOf d → Reads q readValue (Value.meets q) x) :
    Ends (Ends (AsArguments q) (Blamed place d)) (Blamed place d) (readArgumentMapping place d) := by
  have whole := Document.meets_bare met
  have smaller := d.sizeOf_bare_le
  have none : ∀ x, d.bare = x → (∀ es, x ≠ .mapping es) → Ends (Ends (AsArguments q) (Blamed place d))
      (Blamed place d) (if x.isGiven then .error (x.misfit place .notMapping) else .ok (.ok [])) := by
    intro x shape other
    split
    · exact Document.blamed_notMapping shape other
    · exact asArguments_nil q
  rw [readArgumentMapping_bare]
  cases shape : d.bare with
  | mapping args =>
    rw [shape] at whole smaller
    rw [Document.mapping.sizeOf_spec] at smaller
    have each : ∀ e ∈ args, Reads q readValue (Value.meets q) e.2 := by
      intro e there
      apply reads
      have inList := List.sizeOf_lt_of_mem there
      have inPair : sizeOf e = 1 + sizeOf e.1 + sizeOf e.2 := Prod.mk.sizeOf_spec e.1 e.2
      omega
    have ends := readArguments_ends place (fun _ there => there) whole each
    show Ends _ _ (readArguments place args)
    have named := Document.names_of_meets whole
    apply Document.bare_ends shape
    apply ends.imp
    rintro vs ⟨names, fine⟩
    rw [← names] at named
    exact ⟨named, fine⟩
  | knot l x => exact absurd shape (d.bare_ne_knot l x)
  | scalar s => exact none _ shape fun _ => Document.noConfusion
  | list ds => exact none _ shape fun _ => Document.noConfusion
  | tuple ds => exact none _ shape fun _ => Document.noConfusion
  | set ss => exact none _ shape fun _ => Document.noConfusion
  | endless => exact none _ shape fun _ => Document.noConfusion

theorem readArgumentsUnder_ends {es : Entries} (place : Place) (name : String)
    (met : (Document.mapping es).meets q = true)
    (reads : ∀ x, sizeOf x < sizeOf es → Reads q readValue (Value.meets q) x) :
    Ends (Ends (AsArguments q) (Blamed place (.mapping es))) (Blamed place (.mapping es))
      (readArgumentsUnder place name es) := by
  rw [readArgumentsUnder_eq]
  cases found : es.get? name with
  | none => exact asArguments_nil q
  | some x =>
    have below := Entries.sizeOf_get?_lt found
    apply Entries.under_ends found
    refine (readArgumentMapping_ends _ (Entries.meets_get? met found) ?_).imp fun inner ends => ?_
    · intro y smaller
      exact reads y (Nat.lt_trans smaller below)
    · exact Entries.under_ends found ends

theorem readNote_reads_of {d : Document}
    (reads : ∀ x, sizeOf x < sizeOf d → Reads q readValue (Value.meets q) x) :
    Reads q readNote (·.meets q) d := by
  intro met place
  have whole := Document.meets_bare met
  have smaller := d.sizeOf_bare_le
  have bareName : ∀ s, Annotation.meets q { name := s } = true := by
    intro s
    unfold Annotation.meets
    rw [List.map_nil, q.names_nil, Value.argumentsMeet, Bool.and_self]
  rw [readNote_bare]
  cases shape : d.bare with
  | mapping es =>
    rw [shape] at whole smaller
    rw [Document.mapping.sizeOf_spec] at smaller
    have arguments := readArgumentsUnder_ends place "arguments" whole fun x below => reads x (by omega)
    apply Document.bare_ends shape
    rw [readNote]
    cases read : readArgumentsUnder place "arguments" es with
    | error f =>
      rw [read] at arguments
      exact arguments
    | ok args =>
      rw [read] at arguments
      refine (Entries.readText_ends place es (by decide)).bind fun name _ => ?_
      refine Ends.bind arguments fun vs fine => ?_
      show Annotation.meets q { name := name, arguments := vs } = true
      unfold Annotation.meets
      rw [fine.1, fine.2, Bool.and_self]
  | scalar s =>
    cases s with
    | text s => exact bareName s
    | _ => exact Document.blamed_notMapping shape fun _ => Document.noConfusion
  | knot l x => exact absurd shape (d.bare_ne_knot l x)
  | _ => exact Document.blamed_notMapping shape fun _ => Document.noConfusion

/-- The form of a value is that of the first of the keys that the mapping has. -/
theorem readValueIn_mapping_ends {d : Document} {es : Entries} (shape : d.bare = .mapping es)
    (met : (Document.mapping es).meets q = true)
    (reads : ∀ x, sizeOf x < sizeOf es → Reads q readNote (·.meets q) x) (place : Place) :
    Ends (fun v => v.meets q = true) (Blamed place d) (readValueIn d.knots place (.mapping es)) := by
  rw [readValueIn]
  simp only [readNoteUnder_eq]
  cases char : es.get? "char" with
  | some x => exact (Entries.text_ends shape char).map fun _ _ => rfl
  | none =>
  cases enum : es.get? "enum" with
  | some x =>
    apply Document.bare_ends shape
    refine (Entries.under_ends enum (x.readText_ends _)).bind fun enclosing _ => ?_
    exact (Entries.readText_ends place es (by decide)).bind fun name _ => rfl
  | none =>
  cases annotation : es.get? "annotation" with
  | some x =>
    apply Document.bare_ends shape
    have note := Entries.reads_under place met annotation (reads x (Entries.sizeOf_get?_lt annotation))
    exact note.bind fun a fine => fine
  | none =>
  cases type : es.get? "type" with
  | some x =>
    apply Document.bare_ends shape
    exact (Entries.reads_under place met type (readType_reads q x)).bind fun t fine => fine
  | none =>
  cases other : es.get? "other" with
  | some x =>
    apply Document.bare_ends shape
    refine (Entries.under_ends other (x.readText_ends _)).bind fun kind _ => ?_
    exact (Entries.readDescription_ends place es).bind fun description _ => rfl
  | none =>
    have lacks : d.IsMapping fun es => ∀ key ∈ valueKeys, es.get? key = none := by
      refine ⟨es, shape, ?_⟩
      simp [valueKeys, char, enum, annotation, type, other]
    have blamed : Blamed place d (d.bare.showing place .unknownValue d.knots) := Document.blamed_showing ⟨lacks, rfl⟩
    rw [shape] at blamed
    exact blamed

theorem readValue_reads (q : Demands) (d : Document) : Reads q readValue (Value.meets q) d := by
  induction d using Document.induction_on_size with
  | step d ih =>
    intro met place
    have whole := Document.meets_bare met
    have smaller := d.sizeOf_bare_le
    rw [readValue, readValueIn_bare, List.append_nil]
    cases shape : d.bare with
    | mapping es =>
      rw [shape] at whole smaller
      rw [Document.mapping.sizeOf_spec] at smaller
      apply readValueIn_mapping_ends shape whole
      intro x below
      apply readNote_reads_of
      intro y inside
      apply ih
      omega
    | list ds =>
      rw [shape] at whole smaller
      rw [Document.list.sizeOf_spec] at smaller
      have items : ∀ x ∈ ds, Reads q readValue (Value.meets q) x := by
        intro x there
        apply ih
        have := List.sizeOf_lt_of_mem there
        omega
      apply Document.bare_ends shape
      rw [readValueIn, readValues_eq]
      refine (readItems_ends place [] (fun x => Document.meets_of_mem whole) items).bind fun vs fine => ?_
      show Value.allMeet q vs = true
      rw [Value.allMeet_eq_all]
      exact fine
    | scalar s =>
      cases s with
      | integer n =>
        rw [shape] at whole
        exact Document.answers_of_meets whole
      | bool b => rfl
      | number x => rfl
      | text s => rfl
      | _ => exact Document.blamed_notMapping shape fun _ => Document.noConfusion
    | knot l x => exact absurd shape (d.bare_ne_knot l x)
    | _ => exact Document.blamed_notMapping shape fun _ => Document.noConfusion

theorem readNote_reads (q : Demands) (d : Document) : Reads q readNote (·.meets q) d := by
  apply readNote_reads_of
  intro x _
  exact readValue_reads q x

end Values

end ProgramFacts
