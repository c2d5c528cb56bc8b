import ProgramFacts.Proofs.Reading.LongForms

/-!
# Bare names are read like their long forms

A program is read of a document as it is of the document's long form, in which no bare name is left where a mapping may
stand: the same program, or the same fault at the same place.
-/

namespace ProgramFacts

/-- The reader makes the same of the document and of its long form. -/
def Keeps {α : Type} (read : Reader α) (r : Role) (d : Document) : Prop :=
  ∀ place, read place (d.longForm r) = read place d

section Shared

variable {α : Type} {read : Reader α} {r : Role}

/-- Knots that a reader looks into keep what it reads. -/
theorem Keeps.knot {d : Document} (h : Keeps read r d) (through : ∀ place l d, read place (.knot l d) = read place d)
    (l : Nat) : Keeps read r (.knot l d) := by
  intro place
  rw [Document.longForm_knot, through, through]
  split
  · rfl
  · exact h place

theorem readItems_longForm {ds : List Document} (keeps : ∀ x ∈ ds, Keeps read r x) (place : Place) (i : Nat) :
    readItems read place i (ds.map (Document.longForm r)) = readItems read place i ds := by
  induction ds generalizing i with
  | nil => rfl
  | cons d ds ih =>
    rw [List.map_cons, readItems, readItems, keeps d (by simp), ih fun x there => keeps x (by simp [there])]

/-- A list is read as its items are. -/
theorem keeps_list (d : Document) :
    (∀ x, sizeOf x < sizeOf d → Keeps read r x) → Keeps (readList read) (.each r) d := by
  induction d using Document.induction_on_content with
  | scalar s => intro _ place; cases s <;> rfl
  | list ds =>
    intro keeps place
    rw [Document.longForm_list, readList, readList]
    apply readItems_longForm
    intro x there
    have smaller := List.sizeOf_lt_of_mem there
    exact keeps x (by rw [Document.list.sizeOf_spec]; omega)
  | mapping es => intro _ place; rfl
  | knot l d ih =>
    intro keeps
    apply (ih fun x smaller => keeps x (by rw [Document.knot.sizeOf_spec]; omega)).knot
    intro place l d
    rw [readList]
  | tuple ds => intro _ place; rfl
  | set ss => intro _ place; rfl
  | endless => intro _ place; rfl

/-- The entries of a mapping that is no bare name are those of its long form. -/
theorem readMapping_longForm {d : Document} (given : ∀ name, d = .text name → r.longForm? name = none) (place : Place) :
    readMapping place (d.longForm r) = Entries.longForm r <$> readMapping place d := by
  induction d using Document.induction_on_content with
  | scalar s =>
    cases s with
    | text name =>
      rw [Document.longForm, given name rfl]
      rfl
    | _ => rfl
  | mapping es => rfl
  | knot l d ih =>
    rw [Document.longForm_knot, readMapping, readMapping]
    split
    · next scalar =>
      cases d with
      | scalar s => cases s <;> rfl
      | _ => cases scalar
    · next collection =>
      apply ih
      rintro name rfl
      exact absurd rfl collection
  | list ds => rfl
  | tuple ds => rfl
  | set ss => rfl
  | endless => rfl

/-- A reader of a mapping is as good as its reader of entries. -/
theorem mapping_longForm {d : Document} {body : Entries → Except Fault α}
    (given : ∀ name, d = .text name → r.longForm? name = none) (place : Place)
    (same : ∀ es : Entries, body (es.longForm r) = body es) :
    (readMapping place (d.longForm r) >>= body) = (readMapping place d >>= body) := by
  rw [readMapping_longForm given, bind_map_left, funext same]

/-- A reader of names and mappings is as good as its reader of entries, if it reads a name like its long form. -/
theorem keeps_of_name {body : Place → Entries → Except Fault α}
    (mapping : ∀ place d, (∀ name, d ≠ .text name) → read place d = readMapping place d >>= body place)
    (name : ∀ place name, read place ((Document.text name).longForm r) = read place (.text name))
    (same : ∀ place (es : Entries), body place (es.longForm r) = body place es) (d : Document) : Keeps read r d := by
  intro place
  by_cases bare : ∃ name, d = .text name
  · obtain ⟨s, rfl⟩ := bare
    exact name place s
  · have other : ∀ name, d ≠ .text name := fun s h => bare ⟨s, h⟩
    rw [mapping place d other, mapping place _ fun s h => other s (Document.eq_of_longForm_eq_scalar h)]
    exact mapping_longForm (fun s h => absurd h (other s)) place (same place)

end Shared

namespace Entries

variable {α : Type} {read : Reader α} {r s : Role} {es : Entries} {name : String}

theorem readText_longForm (plain : r.under es (.text name) = .plain) (place : Place) :
    (es.longForm r).readText place name = es.readText place name := by
  rw [readText, readText, getNull_longForm_plain plain]

theorem readTexts_longForm (plain : r.under es (.text name) = .plain) (place : Place) :
    (es.longForm r).readTexts place name = es.readTexts place name := by
  rw [readTexts, readTexts, readEach, readEach, getNull_longForm_plain plain]

theorem getNull_longForm (r : Role) (es : Entries) (name : String) :
    (es.longForm r).getNull name = (es.getNull name).longForm (r.under es (.text name)) := by
  rw [getNull, getNull, get?_longForm]
  cases es.get? name <;> rfl

theorem readEach_longForm (role : r.under es (.text name) = .each s)
    (keeps : ∀ x, sizeOf x < sizeOf es → Keeps read s x) (place : Place) :
    (es.longForm r).readEach read place name = es.readEach read place name := by
  rw [readEach, readEach, getNull, getNull, get?_longForm, role]
  cases found : es.get? name with
  | none => rfl
  | some d =>
    have below := sizeOf_get?_lt found
    exact keeps_list d (fun x smaller => keeps x (by omega)) (place.field name)

end Entries

/-! ## Types -/

/-- A bare name is the type that its long form is. -/
theorem readTypeIn_name (labels : List Nat) (place : Place) (name : String) :
    readTypeIn labels place ((Document.text name).longForm .type) = .ok (.ofName name) := by
  rw [Document.text, Document.longForm, Role.longForm?, Option.getD_some, TypeExpr.ofName]
  split
  · rfl
  · split
    · next void => rw [void]; rfl
    · rfl

/-- The key that tells the form of a type tells what is read under its keys. -/
theorem readTypeIn_entries {es : Entries} (keeps : ∀ x, sizeOf x < sizeOf es → Keeps readType .type x)
    (labels : List Nat) (place : Place) :
    readTypeIn labels place (.mapping (es.longForm .type)) = readTypeIn labels place (.mapping es) := by
  have plain : ∀ {name}, name ∉ ["arguments", "array", "bound"] → (es.longForm .type).get? name = es.get? name :=
    fun other => Entries.get?_longForm_plain (Role.under_type es other)
  have under : ∀ {name}, es.get? name = none ∨ Role.type.under es (.text name) = .type →
      ((es.longForm .type).get? name).map (readType (place.field name)) =
        (es.get? name).map (readType (place.field name)) := by
    intro name known
    rw [Entries.get?_longForm]
    cases found : es.get? name with
    | none => rfl
    | some x =>
      have role := known.resolve_left (by simp [found])
      rw [role, Option.map_some, Option.map_some, Option.map_some, keeps x (Entries.sizeOf_get?_lt found)]
  rw [readTypeIn, readTypeIn]
  simp only [readTypesUnder_eq, readTypeUnder_eq, Entries.readDescription, plain (show "declared" ∉ _ by decide),
    plain (show "primitive" ∉ _ by decide), plain (show "type_variable" ∉ _ by decide),
    plain (show "wildcard" ∉ _ by decide), plain (show "no_type" ∉ _ by decide), plain (show "other" ∉ _ by decide),
    plain (show "description" ∉ _ by decide)]
  cases declared : es.get? "declared" with
  | some x =>
    have role : Role.type.under es (.text "arguments") = .each .type := by
      simp [Role.under, Role.fields, Role.typeFields, typeKeys, Entries.has, declared]
    simp only [Entries.readEach_longForm role keeps]
  | none =>
  cases primitive : es.get? "primitive" with
  | some x => rfl
  | none =>
  cases array : es.get? "array" with
  | some x =>
    have role : Role.type.under es (.text "array") = .type := by
      simp [Role.under, Role.fields, Role.typeFields, typeKeys, Entries.has, declared, primitive, array]
    simp only [under (.inr role), array, Option.map_some]
  | none =>
  simp only [under (.inl array), array, Option.map_none]
  cases var : es.get? "type_variable" with
  | some x => rfl
  | none =>
  cases wildcard : es.get? "wildcard" with
  | some kind =>
    by_cases null : kind = .null
    · rw [null]
      rfl
    · have role : Role.type.under es (.text "bound") = .type := by
        simp [Role.under, Role.fields, Role.typeFields, typeKeys, Entries.has, Entries.getNull, declared, primitive,
          array, var, wildcard, Role.boundFields_of_given null]
      simp only [under (.inr role)]
      cases kind with
      | scalar s => cases s <;> rfl
      | _ => rfl
  | none =>
  cases noType : es.get? "no_type" with
  | some x => rfl
  | none =>
  cases other : es.get? "other" with
  | some x => rfl
  | none =>
    have fields : Role.type.fields es = [] := by
      simp [Role.fields, Role.typeFields, typeKeys, Entries.has, declared, primitive, array, var, wildcard, noType,
        other]
    have same : es.longForm .type = es := by
      apply Entries.longForm_of_plain
      intro k
      cases k <;> simp [Role.under, fields, Role.others]
    rw [same]

theorem readTypeIn_longForm (d : Document) : ∀ labels place,
    readTypeIn labels place (d.longForm .type) = readTypeIn labels place d := by
  induction d using Document.induction_on_size with
  | step d ih =>
    intro labels place
    cases d with
    | scalar s =>
      cases s with
      | text name => exact readTypeIn_name labels place name
      | _ => rfl
    | mapping es =>
      rw [Document.longForm_mapping]
      apply readTypeIn_entries
      intro x smaller
      exact ih x (by rw [Document.mapping.sizeOf_spec]; omega) []
    | knot l d =>
      rw [Document.longForm_knot, readTypeIn, readTypeIn]
      split
      · rfl
      · exact ih d (by rw [Document.knot.sizeOf_spec]; omega) (l :: labels) place
    | list ds => rfl
    | tuple ds => rfl
    | set ss => rfl
    | endless => rfl

theorem readType_keeps (d : Document) : Keeps readType .type d := readTypeIn_longForm d []

/-! ## Annotations and their values -/

/-- Arguments are values, one by one. -/
theorem readArguments_longForm {es : Entries} (keeps : ∀ e ∈ es, Keeps readValue .value e.2) (place : Place) :
    readArguments place (es.longForm .arguments) = readArguments place es := by
  have role : Role.arguments.under es = fun _ => .value := by
    funext k
    cases k <;> rfl
  rw [Entries.longForm, role]
  clear role
  induction es with
  | nil => rfl
  | cons e es ih =>
    rw [Document.longEntries, readArguments, readArguments, ih fun e there => keeps e (by simp [there])]
    have first := keeps e (by simp) (place.down (.key e.1))
    rw [readValue] at first
    rw [first]

theorem readArgumentMapping_keeps (d : Document) : (∀ x, sizeOf x < sizeOf d → Keeps readValue .value x) →
    Keeps readArgumentMapping .arguments d := by
  induction d using Document.induction_on_content with
  | scalar s => intro _ place; cases s <;> rfl
  | list ds =>
    intro _ place
    rw [Document.longForm_list, readArgumentMapping, readArgumentMapping] <;> simp [Document.isGiven, Document.misfit,
      Document.kindName]
  | mapping es =>
    intro keeps place
    rw [Document.longForm_mapping, readArgumentMapping, readArgumentMapping, readArguments_longForm]
    intro e there
    have smaller := Entries.sizeOf_lt_of_mem there
    exact keeps e.2 (by rw [Document.mapping.sizeOf_spec]; omega)
  | knot l d ih =>
    intro keeps
    apply (ih fun x smaller => keeps x (by rw [Document.knot.sizeOf_spec]; omega)).knot
    intro place l d
    rw [readArgumentMapping]
  | tuple ds => intro _ place; rfl
  | set ss => intro _ place; rfl
  | endless => intro _ place; rfl

theorem readNote_keeps_of (d : Document) : (∀ x, sizeOf x < sizeOf d → Keeps readValue .value x) →
    Keeps readNote .note d := by
  induction d using Document.induction_on_content with
  | scalar s => intro _ place; cases s <;> rfl
  | mapping es =>
    intro keeps place
    have arguments :
        readArgumentsUnder place "arguments" (es.longForm .note) = readArgumentsUnder place "arguments" es := by
      rw [readArgumentsUnder_eq, readArgumentsUnder_eq, Entries.get?_longForm]
      cases found : es.get? "arguments" with
      | none => rfl
      | some d =>
        have below := Entries.sizeOf_get?_lt found
        refine readArgumentMapping_keeps d (fun x smaller => keeps x ?_) (place.field "arguments")
        rw [Document.mapping.sizeOf_spec]
        omega
    rw [Document.longForm_mapping, readNote, readNote, arguments, Entries.readText_longForm rfl]
  | knot l d ih =>
    intro keeps
    apply (ih fun x smaller => keeps x (by rw [Document.knot.sizeOf_spec]; omega)).knot
    intro place l d
    rw [readNote]
  | list ds => intro _ place; rfl
  | tuple ds => intro _ place; rfl
  | set ss => intro _ place; rfl
  | endless => intro _ place; rfl

/-- The key that tells the form of a value tells what is read under its keys. -/
theorem readValueIn_entries {es : Entries} (keeps : ∀ x, sizeOf x < sizeOf es → Keeps readNote .note x)
    (labels : List Nat) (place : Place) :
    readValueIn labels place (.mapping (es.longForm .value)) = readValueIn labels place (.mapping es) := by
  have plain : ∀ {name}, name ∉ ["annotation", "type"] → (es.longForm .value).get? name = es.get? name :=
    fun other => Entries.get?_longForm_plain (Role.under_value es other)
  have constant := Entries.readText_longForm (Role.under_value es (show "constant" ∉ _ by decide)) place
  rw [readValueIn, readValueIn]
  simp only [readNoteUnder_eq, Entries.readDescription, constant, plain (show "char" ∉ _ by decide),
    plain (show "enum" ∉ _ by decide), plain (show "other" ∉ _ by decide), plain (show "description" ∉ _ by decide)]
  cases char : es.get? "char" with
  | some x => rfl
  | none =>
  cases enum : es.get? "enum" with
  | some x => rfl
  | none =>
  rw [Entries.get?_longForm, Entries.get?_longForm]
  cases note : es.get? "annotation" with
  | some x =>
    have role : Role.value.under es (.text "annotation") = .note := by
      simp [Role.under, Role.fields, Role.valueFields, valueKeys, Entries.has, char, enum, note]
    simp only [role, Option.map_some, keeps x (Entries.sizeOf_get?_lt note) (place.field "annotation")]
  | none =>
  cases type : es.get? "type" with
  | some x =>
    have role : Role.value.under es (.text "type") = .type := by
      simp [Role.under, Role.fields, Role.valueFields, valueKeys, Entries.has, char, enum, note, type]
    simp only [role, Option.map_some, Option.map_none, readType_keeps x (place.field "type")]
  | none =>
  cases other : es.get? "other" with
  | some x => rfl
  | none =>
    have fields : Role.value.fields es = [] := by
      simp [Role.fields, Role.valueFields, valueKeys, Entries.has, char, enum, note, type, other]
    have same : es.longForm .value = es := by
      apply Entries.longForm_of_plain
      intro k
      cases k <;> simp [Role.under, fields, Role.others]
    rw [same]
    rfl

theorem readValueIn_longForm (d : Document) : ∀ labels place,
    readValueIn labels place (d.longForm .value) = readValueIn labels place d := by
  induction d using Document.induction_on_size with
  | step d ih =>
    intro labels place
    cases d with
    | scalar s => cases s <;> rfl
    | list ds =>
      have items : ∀ x ∈ ds, Keeps readValue .value x := by
        intro x there
        have smaller := List.sizeOf_lt_of_mem there
        exact ih x (by rw [Document.list.sizeOf_spec]; omega) []
      rw [Document.longForm_list, readValueIn, readValueIn, readValues_eq, readValues_eq]
      exact congrArg (· >>= fun vs => pure (Value.list vs)) (readItems_longForm items place 0)
    | mapping es =>
      rw [Document.longForm_mapping]
      apply readValueIn_entries
      intro x inside
      apply readNote_keeps_of
      intro y smaller
      exact ih y (by rw [Document.mapping.sizeOf_spec]; omega) []
    | knot l d =>
      rw [Document.longForm_knot, readValueIn, readValueIn]
      split
      · rfl
      · exact ih d (by rw [Document.knot.sizeOf_spec]; omega) (l :: labels) place
    | tuple ds => rfl
    | set ss => rfl
    | endless => rfl

theorem readNote_keeps (d : Document) : Keeps readNote .note d :=
  readNote_keeps_of d fun x _ => readValueIn_longForm x []

/-! ## Declarations -/

namespace Entries

variable {r : Role} {es : Entries} {name : String}

theorem readNotes_longForm (role : r.under es (.text "annotations") = .each .note) (place : Place) :
    (es.longForm r).readNotes place = es.readNotes place :=
  readEach_longForm role (fun x _ => readNote_keeps x) place

theorem readTypeEach_longForm (role : r.under es (.text name) = .each .type) (place : Place) :
    (es.longForm r).readEach readType place name = es.readEach readType place name :=
  readEach_longForm role (fun x _ => readType_keeps x) place

/-- A type that must stand under a name; something may be read before it. -/
theorem readNode_longForm {α : Type} {next : Document → Except Fault α} (role : r.under es (.text name) = .type)
    (place : Place) (same : ∀ d, next (d.longForm .type) = next d) :
    ((es.longForm r).readNode place name >>= next) = (es.readNode place name >>= next) := by
  rw [readNode, readNode, get?_longForm, role]
  cases es.get? name with
  | none => rfl
  | some d => exact same d

theorem readTypeAt_longForm (role : r.under es (.text name) = .type) (place : Place) :
    (es.longForm r).readTypeAt place name = es.readTypeAt place name :=
  readNode_longForm role place fun d => readType_keeps d (place.field name)

theorem readTypeOrNone_of_given {place : Place} (given : es.getNull name ≠ .null) :
    es.readTypeOrNone place name = some <$> readType (place.field name) (es.getNull name) := by
  unfold readTypeOrNone
  split
  · next null => exact absurd null given
  · rfl

theorem readTypeOrNone_longForm (role : r.under es (.text name) = .type) (place : Place) :
    (es.longForm r).readTypeOrNone place name = es.readTypeOrNone place name := by
  have long : (es.longForm r).getNull name = (es.getNull name).longForm .type := by rw [getNull_longForm, role]
  by_cases null : es.getNull name = .null
  · rw [null] at long
    rw [readTypeOrNone, readTypeOrNone, long, null]
    rfl
  · have given : (es.longForm r).getNull name ≠ .null := by
      rw [long]
      exact mt Document.eq_of_longForm_eq_scalar null
    rw [readTypeOrNone_of_given given, readTypeOrNone_of_given null, long, readType_keeps]

end Entries

theorem readTypeParameter_keeps : ∀ d, Keeps readTypeParameter .typeParameter d := by
  apply keeps_of_name
  · intro place d other
    rw [readTypeParameter]
    exact fun name h => other name h
  · intro place name
    rfl
  · intro place es
    rw [Entries.readText_longForm rfl, Entries.readTypeEach_longForm rfl, Entries.readNotes_longForm rfl]

theorem readParameter_keeps (d : Document) : Keeps readParameter .parameter d := by
  intro place
  apply mapping_longForm fun _ _ => rfl
  intro es
  rw [Entries.readText_longForm rfl, Entries.readTexts_longForm rfl, Entries.readNotes_longForm rfl]
  apply Entries.readNode_longForm rfl
  intro node
  rw [readType_keeps]

theorem readComponent_keeps (d : Document) : Keeps readComponent .component d := by
  intro place
  apply mapping_longForm fun _ _ => rfl
  intro es
  rw [Entries.readText_longForm rfl, Entries.readNotes_longForm rfl]
  apply Entries.readNode_longForm rfl
  intro node
  rw [readType_keeps]

section Kinds

variable {es : Entries} {kind : String}

theorem under_declaration (known : es.kind? = some kind) (name : String) :
    Role.declaration.under es (.text name) = ((Role.declarationFields kind).lookup name).getD .plain := by
  rw [Role.under, Role.fields, known]
  rfl

theorem readExecutable_longForm (known : es.kind? = some kind) (executable : kind ∈ executableKinds) (place : Place) :
    readExecutable kind place (es.longForm .declaration) = readExecutable kind place es := by
  have under := under_declaration known
  rw [Role.declarationFields, if_pos executable] at under
  rw [readExecutable_eq, readExecutable_eq, Entries.readText_longForm (under "name"),
    Entries.readTexts_longForm (under "modifiers"),
    Entries.readEach_longForm (under "type_parameters") fun x _ => readTypeParameter_keeps x,
    Entries.readTypeOrNone_longForm (under "returns"),
    Entries.readEach_longForm (under "parameters") fun x _ => readParameter_keeps x,
    Entries.readTypeEach_longForm (under "throws"), Entries.readNotes_longForm (under "annotations"),
    Entries.getNull_longForm_plain (under "doc")]

theorem readVariable_longForm (known : es.kind? = some kind) (other : kind ∉ executableKinds)
    (var : kind ∈ variableKinds) (place : Place) :
    readVariable kind place (es.longForm .declaration) = readVariable kind place es := by
  have under := under_declaration known
  rw [Role.declarationFields, if_neg other, if_pos var] at under
  rw [readVariable, readVariable, Entries.readText_longForm (under "name"),
    Entries.readTexts_longForm (under "modifiers"), Entries.readNotes_longForm (under "annotations"),
    Entries.getNull_longForm_plain (under "doc")]
  apply Entries.readNode_longForm (under "type")
  intro node
  rw [readType_keeps]

theorem readTypeHead_longForm (known : es.kind? = some kind) (other : kind ∉ executableKinds)
    (another : kind ∉ variableKinds) (place : Place)
    (keeps : ∀ x, sizeOf x < sizeOf es → Keeps readDeclaration .declaration x) :
    readTypeHead kind place (es.longForm .declaration) (readMembersUnder place "members" (es.longForm .declaration)) =
      readTypeHead kind place es (readMembersUnder place "members" es) := by
  have under := under_declaration known
  rw [Role.declarationFields, if_neg other, if_neg another] at under
  rw [readTypeHead_eq, readTypeHead_eq, readMembersUnder_eq, readMembersUnder_eq,
    Entries.readText_longForm (under "name"), Entries.readTexts_longForm (under "modifiers"),
    Entries.readEach_longForm (under "type_parameters") fun x _ => readTypeParameter_keeps x,
    Entries.readTypeOrNone_longForm (under "extends"), Entries.readTypeEach_longForm (under "implements"),
    Entries.readTexts_longForm (under "permits"),
    Entries.readEach_longForm (under "components") fun x _ => readComponent_keeps x,
    Entries.readEach_longForm (under "members") keeps, Entries.readNotes_longForm (under "annotations"),
    Entries.getNull_longForm_plain (under "doc")]

end Kinds

theorem Entries.readText_of_given {es : Entries} {name : String} (given : es.getNull name ≠ .null) (place : Place) :
    es.readText place name = (es.getNull name).readText := by
  unfold readText
  split
  · next null => exact absurd null given
  · rfl

theorem Entries.kind?_of_given {es : Entries} (given : es.getNull "kind" ≠ .null) :
    es.kind? = (es.getNull "kind").asText?.map Text.upper := by
  unfold kind?
  split
  · next null => exact absurd null given
  · rfl

theorem Entries.kind?_of_readText {es : Entries} {place : Place} {word : String}
    (read : es.readText place "kind" = .ok word) : es.kind? = some (Text.upper word) := by
  have given : es.getNull "kind" ≠ .null := by
    intro null
    rw [readText, null] at read
    cases read
  rw [readText_of_given given, Document.readText] at read
  rw [kind?_of_given given]
  cases text : (es.getNull "kind").asText? with
  | none =>
    rw [text] at read
    cases read
  | some s =>
    rw [text] at read
    cases read
    rfl

/-- The kind of a declaration decides what is read under its keys. -/
theorem readDeclaration_entries {es : Entries}
    (keeps : ∀ x, sizeOf x < sizeOf es → Keeps readDeclaration .declaration x) (place : Place) :
    readDeclaration place (.mapping (es.longForm .declaration)) = readDeclaration place (.mapping es) := by
  rw [readDeclaration, readDeclaration, Entries.readText_longForm (Role.under_kind es)]
  cases read : es.readText place "kind" with
  | error f => rfl
  | ok word =>
    have known := Entries.kind?_of_readText read
    simp only [bind, Except.bind]
    split
    · next executable => rw [readExecutable_longForm known executable]
    · next other =>
      split
      · next var => rw [readVariable_longForm known other var]
      · next another => exact readTypeHead_longForm known other another place keeps

theorem readDeclaration_keeps (d : Document) : Keeps readDeclaration .declaration d := by
  induction d using Document.induction_on_size with
  | step d ih =>
    cases d with
    | scalar s => intro place; cases s <;> rfl
    | mapping es =>
      intro place
      rw [Document.longForm_mapping]
      apply readDeclaration_entries
      intro x smaller
      exact ih x (by rw [Document.mapping.sizeOf_spec]; omega)
    | knot l d =>
      apply (ih d (by rw [Document.knot.sizeOf_spec]; omega)).knot
      intro place l d
      rw [readDeclaration]
    | list ds => intro place; rfl
    | tuple ds => intro place; rfl
    | set ss => intro place; rfl
    | endless => intro place; rfl

/-! ## Modules, packages and programs -/

theorem readRequires_keeps : ∀ d, Keeps readRequires .requires d := by
  apply keeps_of_name
  · intro place d other
    rw [readRequires]
    exact fun name h => other name h
  · intro place name
    rfl
  · intro place es
    rw [Entries.readText_longForm rfl, Entries.readTexts_longForm rfl, Entries.readNotes_longForm rfl]

theorem readExports_keeps : ∀ d, Keeps readExports .exports d := by
  apply keeps_of_name
  · intro place d other
    rw [readExports]
    exact fun name h => other name h
  · intro place name
    rfl
  · intro place es
    rw [Entries.readText_longForm rfl, Entries.readTexts_longForm rfl, Entries.readNotes_longForm rfl]

theorem readProvides_keeps (d : Document) : Keeps readProvides .provides d := by
  intro place
  apply mapping_longForm fun _ _ => rfl
  intro es
  rw [Entries.readTypeAt_longForm rfl, Entries.readTypeEach_longForm rfl, Entries.readNotes_longForm rfl]

theorem readModule_keeps (d : Document) : Keeps readModule .module d := by
  intro place
  apply mapping_longForm fun _ _ => rfl
  intro es
  rw [Entries.readEach_longForm rfl fun x _ => readRequires_keeps x,
    Entries.readEach_longForm rfl fun x _ => readExports_keeps x, Entries.readTypeEach_longForm rfl,
    Entries.readEach_longForm rfl fun x _ => readProvides_keeps x, Entries.readText_longForm rfl,
    Entries.readTexts_longForm rfl, Entries.readTexts_longForm rfl]

theorem readPackage_keeps (d : Document) : Keeps readPackage .package d := by
  intro place
  apply mapping_longForm fun _ _ => rfl
  intro es
  rw [Entries.readText_longForm rfl, Entries.readEach_longForm rfl fun x _ => readDeclaration_keeps x,
    Entries.readNotes_longForm rfl, Entries.getNull_longForm_plain rfl]

theorem readProgramAt_keeps (d : Document) : Keeps readProgramAt .program d := by
  intro place
  apply mapping_longForm fun _ _ => rfl
  intro es
  rw [Entries.readEach_longForm rfl fun x _ => readModule_keeps x,
    Entries.readEach_longForm rfl fun x _ => readPackage_keeps x]

/-- **Bare names are read like their long forms.** In the long form of a document, no bare name is left where it has a
long form. A program is read of it as of the document itself, or the same fault is found at the same place. Of the
faults that name no place, one arises only where an integer has too many digits, and one only where a collection holds
itself. -/
theorem readProgram_longForm (d : Document) :
    (∀ r name, Occurs .program (d.longForm .program) r (.text name) → r.longForm? name = none) ∧
    readProgram (d.longForm .program) = readProgram d ∧
    match readProgram d with
    | .ok _ => True
    | .error (.at _ _) => True
    | .error .oversized => ∃ steps node, d.Reaches steps node ∧ node.isWritable = false
    | .error .endless => ∃ steps node, d.Reaches steps node ∧ node.bare = .endless := by
  refine ⟨fun r name => longForm?_of_occurs d, readProgramAt_keeps d {}, ?_⟩
  cases read : readProgram d with
  | ok p => trivial
  | error f =>
    obtain ⟨steps, node, reached, describes⟩ := blamed_of_readProgram read
    cases f with
    | «at» place problem => trivial
    | oversized => exact ⟨steps, node, reached, describes⟩
    | endless => exact ⟨steps, node, reached, describes⟩

/-- A document with one package, named by an integer, that has a bare annotation. -/
def Document.annotatedPackage (n : Int) : Document :=
  .mapping [(.text "packages", .list [.mapping [(.text "name", .scalar (.integer n)),
    (.text "annotations", .list [.text "A"])]])]

theorem readProgram_annotatedPackage {n : Int} (oversized : Numeral.isWritable n = false) :
    readProgram (.annotatedPackage n) = .error .oversized := by
  have unnamed : (Document.scalar (.integer n)).readText = .error .oversized := by
    unfold Document.readText Document.asText?
    rw [Document.isWritable, Document.isWritableBelow, Scalar.isWritable, oversized]
    rfl
  simp [Document.annotatedPackage, Document.null, readProgram, readProgramAt, readMapping, Entries.readEach,
    Entries.getNull, Entries.get?, readList, readItems, readPackage, Entries.readText, unnamed, bind, Except.bind]

/-- A package whose name is an integer with too many digits is neither a program nor a fault at a place, be its
annotation bare or not. -/
theorem readProgram_longForm_unplaced :
    let d := Document.annotatedPackage Numeral.writableBound
    ¬((∃ p, readProgram (d.longForm .program) = .ok p ∧ readProgram d = .ok p) ∨
      ∃ place problem, readProgram (d.longForm .program) = .error (.at place problem) ∧
        readProgram d = .error (.at place problem)) := by
  have oversized := readProgram_annotatedPackage Numeral.not_isWritable_writableBound
  rintro d (⟨p, -, read⟩ | ⟨place, problem, -, read⟩)
  · cases oversized.symm.trans read
  · cases oversized.symm.trans read

end ProgramFacts
