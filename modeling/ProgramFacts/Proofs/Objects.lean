import Mathlib.Data.List.Nodup
import ProgramFacts.Config

/-!
# Objects

A mapping whose keys are texts, each of them there once, is an object. A name that is set is found, and the entries of
one object set over those of another have the keys of both in the order in which they first appear. What a JSON text
holds, if it is a mapping at all, is an object.
-/

namespace ProgramFacts

/-- No other key is the same as a text. -/
theorem Scalar.sameKey_text {k : Scalar} {name : String} : k.sameKey (.text name) = true ↔ k = .text name := by
  cases k <;> simp [sameKey, int?]

theorem eraseDups_of_nodup {α : Type} [BEq α] [LawfulBEq α] {l : List α} (distinct : l.Nodup) : l.eraseDups = l := by
  induction l with
  | nil => rfl
  | cons a l ih =>
    obtain ⟨fresh, distinct⟩ := List.nodup_cons.1 distinct
    have others : l.filter (fun b => !b == a) = l := by
      refine List.filter_eq_self.2 fun b member => ?_
      have different : b ≠ a := fun same => fresh (same ▸ member)
      simpa using different
    rw [List.eraseDups_cons, others, ih distinct]

/-- What has appeared before does not count again. -/
theorem eraseDups_append_cons_of_mem {α : Type} [BEq α] [LawfulBEq α] {l r : List α} {a : α} (member : a ∈ l) :
    (l ++ a :: r).eraseDups = (l ++ r).eraseDups := by
  have removed : (a :: r).removeAll l = r.removeAll l := by simp [List.removeAll, member]
  rw [List.eraseDups_append, List.eraseDups_append, removed]

/-! ## Names -/

namespace Entries

/-- The keys in their order. -/
def keys (es : Entries) : List Scalar := es.map Prod.fst

@[simp] theorem keys_cons (k : Scalar) (v : Document) (es : Entries) : keys ((k, v) :: es) = k :: keys es := rfl

theorem keys_append (es later : Entries) : keys (es ++ later) = es.keys ++ later.keys := List.map_append

/-- Whether the entries are those of an object. -/
structure IsObject (es : Entries) : Prop where
  texts : ∀ k ∈ es.keys, ∃ name, k = .text name
  distinct : es.keys.Nodup

variable {es later : Entries} {name : String}

theorem isObject_nil : IsObject [] := ⟨by simp [keys], .nil⟩

theorem isObject_cons {k : Scalar} {v : Document} :
    IsObject ((k, v) :: es) ↔ (∃ name, k = .text name) ∧ k ∉ es.keys ∧ es.IsObject := by
  constructor
  · rintro ⟨texts, distinct⟩
    rw [keys_cons] at texts distinct
    obtain ⟨fresh, distinct⟩ := List.nodup_cons.1 distinct
    exact ⟨texts k List.mem_cons_self, fresh, fun k member => texts k (List.mem_cons_of_mem _ member), distinct⟩
  · rintro ⟨text, fresh, texts, distinct⟩
    exact ⟨List.forall_mem_cons.2 ⟨text, texts⟩, List.nodup_cons.2 ⟨fresh, distinct⟩⟩

theorem get?_cons (k : Scalar) (v : Document) (es : Entries) (name : String) :
    get? ((k, v) :: es) name = if k = .text name then some v else es.get? name := rfl

/-- A name has no value if it is no key. -/
theorem get?_eq_none : es.get? name = none ↔ .text name ∉ es.keys := by
  induction es with
  | nil => simp [get?, keys]
  | cons e es ih =>
    obtain ⟨k, v⟩ := e
    rw [get?_cons, keys_cons, List.mem_cons]
    by_cases same : k = .text name
    · simp [same]
    · simp [same, ih, Ne.symm same]

/-- Setting a name gives it a value and leaves what other names have. -/
theorem get?_set (es : Entries) (name other : String) (value : Document) :
    (es.set (.text other) value).get? name = if name = other then some value else es.get? name := by
  induction es with
  | nil => simp [set, get?, eq_comm]
  | cons e es ih =>
    obtain ⟨k, v⟩ := e
    rw [set]
    by_cases same : k = .text other
    · rw [if_pos (Scalar.sameKey_text.2 same), get?_cons, get?_cons, same]
      by_cases asked : name = other
      · simp [asked]
      · simp [asked, Ne.symm asked]
    · rw [if_neg (mt Scalar.sameKey_text.1 same), get?_cons, get?_cons, ih]
      by_cases asked : name = other
      · simp [asked, same]
      · simp [asked]

/-- Setting one name leaves what other names have. -/
theorem get?_set_of_ne {name other : String} (different : name ≠ other) (value : Document) :
    (es.set (.text other) value).get? name = es.get? name := by
  rw [get?_set, if_neg different]

/-- A name that is set stays where it is, or comes last. -/
theorem keys_set (es : Entries) (name : String) (value : Document) :
    (es.set (.text name) value).keys = if .text name ∈ es.keys then es.keys else es.keys ++ [.text name] := by
  induction es with
  | nil => rfl
  | cons e es ih =>
    obtain ⟨k, v⟩ := e
    rw [set]
    by_cases same : k = .text name
    · rw [if_pos (Scalar.sameKey_text.2 same), keys_cons, keys_cons, if_pos (List.mem_cons.2 (.inl same.symm))]
    · rw [if_neg (mt Scalar.sameKey_text.1 same), keys_cons, keys_cons, ih]
      by_cases there : .text name ∈ keys es
      · rw [if_pos there, if_pos (List.mem_cons_of_mem _ there)]
      · have absent : .text name ∉ k :: keys es := fun member =>
          (List.mem_cons.1 member).elim (fun first => same first.symm) there
        rw [if_neg there, if_neg absent, List.cons_append]

theorem IsObject.set (object : es.IsObject) (name : String) (value : Document) :
    (es.set (.text name) value).IsObject := by
  by_cases there : .text name ∈ es.keys
  · have same : (es.set (.text name) value).keys = es.keys := by rw [keys_set, if_pos there]
    exact ⟨same ▸ object.texts, same ▸ object.distinct⟩
  · have longer : (es.set (.text name) value).keys = es.keys ++ [.text name] := by rw [keys_set, if_neg there]
    refine ⟨fun k member => ?_, ?_⟩
    · rw [longer] at member
      rcases List.mem_append.1 member with before | last
      · exact object.texts k before
      · exact ⟨name, List.mem_singleton.1 last⟩
    · rw [longer, List.nodup_append]
      refine ⟨object.distinct, List.nodup_singleton _, fun k before other last => ?_⟩
      rintro rfl
      exact there (List.mem_singleton.1 last ▸ before)

/-- An object is told by its keys in their order and by what its names have. -/
theorem IsObject.ext {es' : Entries} (object : es.IsObject) (sameKeys : es.keys = es'.keys)
    (sameValues : ∀ name, es.get? name = es'.get? name) : es = es' := by
  induction es generalizing es' with
  | nil => exact (List.map_eq_nil_iff.1 sameKeys.symm).symm
  | cons e es ih =>
    obtain ⟨k, v⟩ := e
    obtain ⟨⟨name, rfl⟩, fresh, others⟩ := isObject_cons.1 object
    cases es' with
    | nil => cases sameKeys
    | cons e' es' =>
      obtain ⟨k', v'⟩ := e'
      rw [keys_cons, keys_cons, List.cons.injEq] at sameKeys
      obtain ⟨rfl, sameKeys⟩ := sameKeys
      have first := sameValues name
      rw [get?_cons, get?_cons, if_pos rfl, if_pos rfl] at first
      obtain rfl := Option.some.inj first
      have rest : ∀ other, get? es other = get? es' other := by
        intro other
        by_cases same : name = other
        · rw [← same, get?_eq_none.2 fresh, get?_eq_none.2 (sameKeys ▸ fresh)]
        · have different : ¬Scalar.text name = .text other := by simpa using same
          have values := sameValues other
          rwa [get?_cons, get?_cons, if_neg different, if_neg different] at values
      rw [ih others sameKeys rest]

/-! ## One object over another -/

theorem update_cons (es : Entries) (k : Scalar) (v : Document) (later : Entries) :
    es.update ((k, v) :: later) = (es.set k v).update later := rfl

theorem update_update (es first second : Entries) : (es.update first).update second = es.update (first ++ second) :=
  List.foldl_append.symm

/-- A name has what the later object says, and if that says nothing, what it had. -/
theorem get?_update (es : Entries) (object : later.IsObject) (name : String) :
    (es.update later).get? name = (later.get? name).or (es.get? name) := by
  induction later generalizing es with
  | nil => rfl
  | cons e later ih =>
    obtain ⟨k, v⟩ := e
    obtain ⟨⟨other, rfl⟩, fresh, object⟩ := isObject_cons.1 object
    rw [update_cons, ih _ object, get?_set, get?_cons]
    by_cases same : name = other
    · subst same
      -- the later object says nothing more about a name that it has set
      rw [get?_eq_none.2 fresh]
      simp
    · simp [same, Ne.symm same]

theorem IsObject.update (object : es.IsObject) (texts : ∀ k ∈ later.keys, ∃ name, k = .text name) :
    (es.update later).IsObject := by
  induction later generalizing es with
  | nil => exact object
  | cons e later ih =>
    obtain ⟨k, v⟩ := e
    obtain ⟨name, rfl⟩ := texts k List.mem_cons_self
    exact ih (object.set name v) fun k member => texts k (List.mem_cons_of_mem _ member)

/-- The keys of both, in the order in which they first appear. -/
theorem keys_update (object : es.IsObject) (texts : ∀ k ∈ later.keys, ∃ name, k = .text name) :
    (es.update later).keys = (es.keys ++ later.keys).eraseDups := by
  induction later generalizing es with
  | nil =>
    have none : keys [] = [] := rfl
    rw [none, List.append_nil, eraseDups_of_nodup object.distinct]
    rfl
  | cons e later ih =>
    obtain ⟨k, v⟩ := e
    obtain ⟨name, rfl⟩ := texts k List.mem_cons_self
    rw [update_cons, ih (object.set name v) fun k member => texts k (List.mem_cons_of_mem _ member), keys_cons,
      keys_set]
    by_cases there : .text name ∈ es.keys
    · rw [if_pos there, eraseDups_append_cons_of_mem there]
    · rw [if_neg there, List.append_assoc, List.singleton_append]

/-- The entries that are not null. -/
def made (es : Entries) : Entries := es.filter fun e => !e.2.isNull

theorem made_cons (k : Scalar) (v : Document) (es : Entries) :
    made ((k, v) :: es) = if v.isNull then es.made else (k, v) :: es.made := by
  cases null : v.isNull <;> simp [made, null]

theorem keys_made_subset (es : Entries) : es.made.keys ⊆ es.keys := (List.filter_sublist.map _).subset

theorem IsObject.made (object : es.IsObject) : es.made.IsObject :=
  ⟨fun k member => object.texts k (es.keys_made_subset member), object.distinct.sublist (List.filter_sublist.map _)⟩

/-- Of the names only those are left that do not have null. -/
theorem get?_made (object : es.IsObject) (name : String) :
    es.made.get? name = (es.get? name).filter fun d => !d.isNull := by
  induction es with
  | nil => rfl
  | cons e es ih =>
    obtain ⟨k, v⟩ := e
    obtain ⟨⟨other, rfl⟩, fresh, others⟩ := isObject_cons.1 object
    rw [made_cons, get?_cons]
    by_cases same : name = other
    · subst same
      rw [if_pos rfl]
      cases null : v.isNull with
      | true =>
        have absent : get? es name = none := get?_eq_none.2 fresh
        rw [if_pos rfl, ih others, absent]
        simp [Option.filter, null]
      | false => simp [get?_cons, Option.filter, null]
    · have different : ¬Scalar.text other = .text name := by simpa using Ne.symm same
      rw [if_neg different, ← ih others]
      cases v.isNull with
      | true => rfl
      | false => simp [get?_cons, different]

end Entries

/-! ## JSON texts -/

/-- Whether a document is an object, if it is a mapping. -/
def Document.MapsNames (d : Document) : Prop := ∀ es : Entries, d = .mapping es → es.IsObject

theorem Document.mapsNames_mapping {es : Entries} : (Document.mapping es).MapsNames ↔ es.IsObject :=
  ⟨fun names => names es rfl, fun object _ same => Document.mapping.inj same ▸ object⟩

theorem Document.mapsNames_scalar (s : Scalar) : (Document.scalar s).MapsNames := by
  intro es impossible
  cases impossible

theorem Document.mapsNames_list (items : List Document) : (Document.list items).MapsNames := by
  intro es impossible
  cases impossible

namespace Json

/-- Whether what has been begun has the entries of an object. -/
def Frame.MapsNames : Frame → Prop
  | .list _ => True
  | .mapping entries _ => entries.IsObject

/-- Whether what has been read when something comes next has the entries of an object. -/
def Mode.MapsNames : Mode → Prop
  | .key entries => entries.IsObject
  | .colon entries _ => entries.IsObject
  | .follow d => d.MapsNames
  | _ => True

def Next.MapsNames : Next → Prop
  | .done d => d.MapsNames
  | .go stack mode => (∀ f ∈ stack, f.MapsNames) ∧ mode.MapsNames

variable {dialect : Dialect} {t : Placed} {stack : List Frame} {mode : Mode} {next : Next}

theorem mapsNames_stepValue (begun : ∀ f ∈ stack, f.MapsNames) (stepped : stepValue t stack = .ok next) :
    next.MapsNames := by
  unfold stepValue at stepped
  split at stepped
  · cases stepped
    exact ⟨begun, trivial⟩
  · cases stepped
    exact ⟨begun, trivial⟩
  · cases stepped
    exact ⟨begun, Document.mapsNames_scalar _⟩
  · cases stepped
    exact ⟨begun, Document.mapsNames_scalar _⟩
  all_goals cases stepped

theorem mapsNames_stepKey {entries : Entries} (begun : ∀ f ∈ stack, f.MapsNames) (object : entries.IsObject)
    (stepped : stepKey t stack entries = .ok next) : next.MapsNames := by
  unfold stepKey at stepped
  split at stepped
  · cases stepped
    exact ⟨begun, object⟩
  all_goals cases stepped

/-- One token adds to what has been read at most an entry, under a text. -/
theorem mapsNames_step (begun : ∀ f ∈ stack, f.MapsNames) (read : mode.MapsNames)
    (stepped : step dialect t stack mode = .ok next) : next.MapsNames := by
  have below : ∀ {f : Frame} {rest : List Frame}, stack = f :: rest → f.MapsNames ∧ ∀ f ∈ rest, f.MapsNames :=
    fun same => List.forall_mem_cons.1 (same ▸ begun)
  have empty : (Document.mapping []).MapsNames := Document.mapsNames_mapping.2 Entries.isObject_nil
  cases mode with
  | value => exact mapsNames_stepValue begun stepped
  | firstItem =>
    simp only [step] at stepped
    split at stepped
    · cases stepped
      exact ⟨begun, Document.mapsNames_list _⟩
    · cases stepped
      exact ⟨begun, trivial⟩
    · have list : Frame.MapsNames (.list []) := trivial
      exact mapsNames_stepValue (List.forall_mem_cons.2 ⟨list, begun⟩) stepped
  | item =>
    simp only [step] at stepped
    split at stepped
    · cases stepped
      exact ⟨(below rfl).2, Document.mapsNames_list _⟩
    · exact mapsNames_stepValue begun stepped
  | firstKey =>
    simp only [step] at stepped
    split at stepped
    · cases stepped
      exact ⟨begun, empty⟩
    · cases stepped
      exact ⟨begun, trivial⟩
    · exact mapsNames_stepKey begun Entries.isObject_nil stepped
  | key entries =>
    simp only [step] at stepped
    split at stepped
    · cases stepped
      exact ⟨begun, Document.mapsNames_mapping.2 read⟩
    · exact mapsNames_stepKey begun read stepped
  | colon entries key =>
    simp only [step] at stepped
    split at stepped
    · cases stepped
      exact ⟨List.forall_mem_cons.2 ⟨read, begun⟩, trivial⟩
    · cases stepped
  | follow d =>
    -- Here alone an entry is added, to a mapping that goes on or is closed.
    simp only [step] at stepped
    split at stepped
    · cases stepped
      exact read
    · cases stepped
    · cases stepped
      exact ⟨List.forall_mem_cons.2 ⟨trivial, (below rfl).2⟩, trivial⟩
    · cases stepped
      exact ⟨(below rfl).2, Document.mapsNames_list _⟩
    · next key _ _ =>
      cases stepped
      exact ⟨(below rfl).2, (below rfl).1.set key d⟩
    · next key _ _ =>
      cases stepped
      exact ⟨(below rfl).2, Document.mapsNames_mapping.2 ((below rfl).1.set key d)⟩
    · cases stepped
  | closeList =>
    simp only [step] at stepped
    split at stepped
    · cases stepped
      exact ⟨begun, Document.mapsNames_list _⟩
    · cases stepped
  | closeMapping =>
    simp only [step] at stepped
    split at stepped
    · cases stepped
      exact ⟨begun, empty⟩
    · cases stepped

theorem mapsNames_run {ts : List Placed} {d : Document} (begun : ∀ f ∈ stack, f.MapsNames) (read : mode.MapsNames)
    (done : run dialect stack mode ts = .ok d) : d.MapsNames := by
  induction ts generalizing stack mode with
  | nil => cases done
  | cons t ts ih =>
    rw [run] at done
    split at done
    · cases done
    · next stepped =>
      cases done
      exact mapsNames_step begun read stepped
    · next stepped =>
      obtain ⟨begun, read⟩ := mapsNames_step begun read stepped
      exact ih begun read done

theorem mapsNames_parse {text : List Char} {d : Document} (parsed : parse dialect text = .ok d) : d.MapsNames := by
  rw [parse] at parsed
  split at parsed
  · cases parsed
  · have nothing : Mode.MapsNames .value := trivial
    exact mapsNames_run (by simp) nothing parsed

end Json

end ProgramFacts
