import Mathlib.Data.List.TakeWhile
import ProgramFacts.Proofs.Form.Simulation
import ProgramFacts.Proofs.ValueTerms

/-!
# Placeholders and their warnings

The parts of a type or of a value lie in it as the parts of its term lie in the term: what stands at a place of the one
has its term at the same place of the other. A place is a list of numbers, each of which picks one of the parts of the
part before it, and places are ordered from left to right. The encoder goes through the places in this order. It warns
once at each part that has no shape, puts a placeholder there, and stops only at an integer with too many digits, in a
value or in the text of a warning.
-/

namespace ProgramFacts

/-! ## Parts and places -/

/-- What may stand at a place of a term. -/
inductive Part
  /-- A name, a kind, or a word that tells the form of a type. -/
  | word (s : String)
  | type (t : TypeExpr)
  | types (ts : List TypeExpr)
  | value (v : Value)
  | argument (name : String) (v : Value)
  | arguments (vs : List (String × Value))

namespace Part

/-- A value as a part; a type that is a value is a type. -/
def ofValue : Value → Part
  | .type t => .type t
  | v => .value v

def term : Part → Term
  | .word s => .atom s
  | .type t => t.term
  | .types ts => .list (TypeExpr.terms ts)
  | .value v => v.term
  | .argument n v => .compound "annotation_argument" [.atom n, v.term]
  | .arguments vs => .list (Value.argumentTerms vs)

/-- The parts directly below a type. -/
def ofType : TypeExpr → List Part
  | .declared n ts => [.word n, .types ts]
  | .primitive k => [.word "primitive", .word (Text.lower k)]
  | .array t => [.word "array", .type t]
  | .typeVariable n => [.word "type_variable", .word n]
  | .wildcard (some t) _ => [.word "wildcard_extends", .type t]
  | .wildcard none (some t) => [.word "wildcard_super", .type t]
  | .wildcard none none => [.word "wildcard_unbounded", .word "null"]
  | .noType k => [.word "no_type", .word (Text.lower k)]
  | .other _ _ | .stray _ => []

/-- The parts directly below a part. -/
def parts : Part → List Part
  | .word _ => []
  | .type t => ofType t
  | .types ts => ts.map .type
  | .value (.nested n vs) => [.word n, .arguments vs]
  | .value (.list vs) => vs.map ofValue
  | .value (.type t) => ofType t
  | .value _ => []
  | .argument n v => [.word n, ofValue v]
  | .arguments vs => vs.map fun a => .argument a.1 a.2

/-- The part at a place below a part. -/
def at? (p : Part) : List Nat → Option Part
  | [] => some p
  | i :: place => (p.parts[i]?).bind fun q => q.at? place

end Part

theorem TypeExpr.terms_eq_map (ts : List TypeExpr) : TypeExpr.terms ts = ts.map TypeExpr.term := by
  induction ts with
  | nil => rfl
  | cons t ts ih => rw [List.map_cons, ← ih]; rfl

theorem Value.terms_eq_map (vs : List Value) : Value.terms vs = vs.map Value.term := by
  induction vs with
  | nil => rw [Value.terms]; rfl
  | cons v vs ih => rw [Value.terms, ih, List.map_cons]

theorem Value.argumentTerms_eq_map (vs : List (String × Value)) :
    Value.argumentTerms vs = vs.map fun a => .compound "annotation_argument" [.atom a.1, a.2.term] := by
  induction vs with
  | nil => rw [Value.argumentTerms]; rfl
  | cons a vs ih => rw [Value.argumentTerms, ih, List.map_cons]

namespace Part

theorem term_ofValue (v : Value) : (ofValue v).term = v.term := by
  cases v <;> rfl

theorem parts_term_type (t : TypeExpr) : t.term.parts = (ofType t).map term := by
  cases t with
  | wildcard extendsBound superBound =>
    cases extendsBound with
    | some _ => rfl
    | none => cases superBound <;> rfl
  | _ => rfl

/-- The parts of a term are the terms of the parts. -/
theorem parts_term (p : Part) : p.term.parts = p.parts.map term := by
  cases p with
  | word s => rfl
  | type t => exact parts_term_type t
  | types ts =>
    rw [term, Term.parts, TypeExpr.terms_eq_map, parts, List.map_map]
    rfl
  | value v =>
    cases v with
    | list vs =>
      rw [term, Value.term, Term.parts, Value.terms_eq_map, parts, List.map_map]
      exact List.map_congr_left fun v _ => (term_ofValue v).symm
    | type t => exact parts_term_type t
    | _ => rfl
  | argument n v =>
    rw [parts, List.map_cons, List.map_singleton, term_ofValue]
    rfl
  | arguments vs =>
    rw [term, Term.parts, Value.argumentTerms_eq_map, parts, List.map_map]
    rfl

/-- What stands at a place of a term is the term of the part there. -/
theorem at?_term (p : Part) (place : List Nat) : p.term.at? place = (p.at? place).map term := by
  induction place generalizing p with
  | nil => rfl
  | cons i place ih =>
    rw [Term.at?, at?, parts_term, List.getElem?_map]
    cases p.parts[i]? with
    | none => rfl
    | some q => exact ih q

end Part

/-! ## Warnings -/

/-- What is said of something that has no shape: its kind with its description, or with the thing itself if there is no
description. -/
def described (sort : FormSort) (kind description : String) : String :=
  kind ++ " for " ++ if description = "" then (Form.ofKind sort kind description).shown else description

theorem describe_ofKind (sort : FormSort) (kind description : String) :
    (Form.ofKind sort kind description).describe = described sort kind description := by
  rw [described]
  split
  · next none =>
    subst none
    rfl
  · next given =>
    have isGiven : (Form.text description).isGiven = true := by
      simpa [Form.text, Form.isGiven, Document.isGiven] using given
    have detail : (some (Form.text description)).filter Form.isGiven = some (Form.text description) := by
      rw [Option.filter_some_pos isGiven]
    change kind ++ " for " ++ (((some (Form.text description)).filter Form.isGiven).getD _).asText = _
    rw [detail]
    rfl

/-- The warning that a type without a shape calls for. -/
def TypeExpr.warning? : TypeExpr → Option Warning
  | .other k d => some (.unknownType (described .otherType k d))
  | .stray f => some (.unknownType f.describe)
  | _ => none

/-- The warning that a value without a shape calls for. -/
def Value.warning? : Value → Option Warning
  | .other k d => some (.unknownValue (described .otherValue k d))
  | .stray f => some (.unknownValue f.describe)
  | .type t => t.warning?
  | _ => none

namespace Part

def warning? : Part → Option Warning
  | .type t => t.warning?
  | .value v => v.warning?
  | _ => none

/-- Whether the part is an integer with too many digits, or a stray whose description shows one. -/
def isOversized : Part → Bool
  | .value (.integer n) => !Numeral.isWritable n
  | .type (.stray f) | .value (.stray f) => !f.isDescribable
  | _ => false

/-- Whether the encoder warns or stops at the part. -/
def isMark (p : Part) : Bool := p.warning?.isSome || p.isOversized

end Part

/-! ## Marks -/

/-- A part at its place. -/
structure Mark where
  place : List Nat
  part : Part

namespace Mark

/-- The mark as seen from one level above. -/
def under (i : Nat) (m : Mark) : Mark := { m with place := i :: m.place }

theorem mem_map_under {ms : List Mark} {i : Nat} {place : List Nat} {p : Part} :
    ⟨place, p⟩ ∈ ms.map (under i) ↔ ∃ rest, place = i :: rest ∧ ⟨rest, p⟩ ∈ ms := by
  rw [List.mem_map]
  constructor
  · rintro ⟨⟨rest, q⟩, member, same⟩
    cases same
    exact ⟨rest, rfl, member⟩
  · rintro ⟨rest, rfl, member⟩
    exact ⟨_, member, rfl⟩

/-- The marks of several things, each below its number. -/
def spread {α : Type} (marks : α → List Mark) : Nat → List α → List Mark
  | _, [] => []
  | i, a :: as => (marks a).map (under i) ++ spread marks (i + 1) as

theorem mem_spread {α : Type} {marks : α → List Mark} {as : List α} {i : Nat} {place : List Nat} {p : Part} :
    ⟨place, p⟩ ∈ spread marks i as ↔ ∃ j rest a, place = (i + j) :: rest ∧ as[j]? = some a ∧ ⟨rest, p⟩ ∈ marks a := by
  induction as generalizing i with
  | nil => simp [spread]
  | cons a as ih =>
    rw [spread, List.mem_append, mem_map_under, ih]
    constructor
    · rintro (⟨rest, rfl, member⟩ | ⟨j, rest, b, rfl, found, member⟩)
      · exact ⟨0, rest, a, rfl, rfl, member⟩
      · exact ⟨j + 1, rest, b, by rw [Nat.add_assoc, Nat.add_comm 1 j], found, member⟩
    · rintro ⟨j, rest, b, rfl, found, member⟩
      cases j with
      | zero =>
        cases found
        exact Or.inl ⟨rest, rfl, member⟩
      | succ j => exact Or.inr ⟨j, rest, b, by rw [Nat.add_assoc, Nat.add_comm 1 j], found, member⟩

/-- From left to right. -/
def InOrder (ms : List Mark) : Prop := ms.Pairwise fun m n => m.place < n.place

theorem InOrder.under {ms : List Mark} (order : InOrder ms) (i : Nat) : InOrder (ms.map (Mark.under i)) := by
  rw [InOrder, List.pairwise_map]
  exact order.imp fun less => List.cons_lt_cons_iff.2 (Or.inr ⟨rfl, less⟩)

theorem InOrder.spread {α : Type} {marks : α → List Mark} {as : List α} (each : ∀ a ∈ as, InOrder (marks a)) (i : Nat) :
    InOrder (Mark.spread marks i as) := by
  induction as generalizing i with
  | nil => exact .nil
  | cons a as ih =>
    rw [List.forall_mem_cons] at each
    refine List.pairwise_append.2 ⟨each.1.under i, ih each.2 (i + 1), ?_⟩
    -- all that comes later has a greater number in front
    rintro ⟨place, p⟩ here ⟨place', p'⟩ later
    obtain ⟨rest, rfl, -⟩ := mem_map_under.1 here
    obtain ⟨j, rest', -, rfl, -, -⟩ := mem_spread.1 later
    exact List.cons_lt_cons_iff.2 (Or.inl (by omega))

end Mark

namespace Part

/-- The marks of a part: all of them, from left to right. -/
structure HasMarks (p : Part) (ms : List Mark) : Prop where
  inOrder : Mark.InOrder ms
  mem_iff : ∀ place q, ⟨place, q⟩ ∈ ms ↔ p.at? place = some q ∧ q.isMark = true

theorem at?_leaf {p q : Part} (leaf : p.parts = []) {place : List Nat} :
    p.at? place = some q ↔ place = [] ∧ p = q := by
  cases place with
  | nil => simp [at?]
  | cons i place => simp [at?, leaf]

theorem hasMarks_nil {p : Part} (leaf : p.parts = []) (unmarked : p.isMark = false) : p.HasMarks [] := by
  refine ⟨.nil, fun place q => iff_of_false List.not_mem_nil ?_⟩
  rintro ⟨here, marked⟩
  obtain ⟨-, rfl⟩ := (at?_leaf leaf).1 here
  exact absurd marked (by simp [unmarked])

theorem hasMarks_self {p : Part} (leaf : p.parts = []) (marked : p.isMark = true) : p.HasMarks [⟨[], p⟩] := by
  refine ⟨List.pairwise_singleton _ _, fun place q => ?_⟩
  rw [List.mem_singleton, at?_leaf leaf, Mark.mk.injEq]
  constructor
  · rintro ⟨rfl, rfl⟩
    exact ⟨⟨rfl, rfl⟩, marked⟩
  · rintro ⟨⟨rfl, rfl⟩, -⟩
    exact ⟨rfl, rfl⟩

/-- A part that is no mark has the marks of its parts. -/
theorem hasMarks_spread {α : Type} {p : Part} {as : List α} {f : α → Part} {marks : α → List Mark}
    (parts : p.parts = as.map f) (unmarked : p.isMark = false) (each : ∀ a ∈ as, (f a).HasMarks (marks a)) :
    p.HasMarks (Mark.spread marks 0 as) := by
  refine ⟨Mark.InOrder.spread (fun a member => (each a member).inOrder) 0, fun place q => ?_⟩
  rw [Mark.mem_spread]
  constructor
  · rintro ⟨j, rest, a, rfl, found, member⟩
    rw [(each a (List.mem_of_getElem? found)).mem_iff] at member
    rw [Nat.zero_add, at?, parts, List.getElem?_map, found]
    exact member
  · rintro ⟨below, marked⟩
    cases place with
    | nil =>
      cases below
      exact absurd marked (by simp [unmarked])
    | cons j rest =>
      rw [at?, parts, List.getElem?_map] at below
      cases found : as[j]? with
      | none =>
        rw [found] at below
        cases below
      | some a =>
        rw [found] at below
        have member := (each a (List.mem_of_getElem? found)).mem_iff rest q
        exact ⟨j, rest, a, by rw [Nat.zero_add], found, member.2 ⟨below, marked⟩⟩

theorem hasMarks_word (s : String) : (word s).HasMarks [] := hasMarks_nil rfl rfl

/-- A part that is no mark and has a word and one other part has the marks of the latter. -/
theorem HasMarks.beside {p q : Part} {s : String} {ms : List Mark} (marks : q.HasMarks ms)
    (parts : p.parts = [.word s, q]) (unmarked : p.isMark = false) : p.HasMarks (ms.map (Mark.under 1)) := by
  have both : ∀ a ∈ [(Part.word s, []), (q, ms)], a.1.HasMarks a.2 := by
    simp [hasMarks_word, marks]
  simpa [Mark.spread] using hasMarks_spread parts unmarked both

end Part

/-! ## Reports -/

/-- Whether the marks are gone through one by one: there is one warning for each up to the first oversized one, and
there is a result if none is oversized. -/
structure Noted.Reports {α : Type} (n : Noted α) (ms : List Mark) : Prop where
  isOk : n.isOk = ms.all fun m => !m.part.isOversized
  warnings : n.warnings.map some = (ms.takeWhile fun m => !m.part.isOversized).map fun m => m.part.warning?

namespace Noted

variable {α β : Type}

theorem reports_pure (a : α) : (pure a : Noted α).Reports [] := ⟨rfl, rfl⟩

theorem reports_warn {p : Part} {w : Warning} (call : p.warning? = some w) (writable : p.isOversized = false) (a : α) :
    (warn w a).Reports [⟨[], p⟩] := by
  constructor
  · simp [writable]
  · simp [writable, call, warn]

theorem reports_fail {p : Part} (oversized : p.isOversized = true) (e : EncodeFault) :
    (fail e : Noted α).Reports [⟨[], p⟩] := by
  constructor
  · simp [oversized, fail, Noted.isOk, Except.toBool]
  · simp [oversized, fail]

theorem Reports.bind {x : Noted α} {f : α → Noted β} {ms ms' : List Mark} (first : x.Reports ms)
    (next : ∀ a, (f a).Reports ms') : (x >>= f).Reports (ms ++ ms') := by
  refine ⟨by rw [isOk_bind fun a => (next a).isOk, first.isOk, List.all_append], ?_⟩
  have ok := first.isOk
  cases h : x.result with
  | ok a =>
    rw [Noted.isOk, h] at ok
    have all := List.all_eq_true.1 ok.symm
    rw [bind_eq_of_ok h, List.takeWhile_append_of_pos all, List.map_append, List.map_append, ← (next a).warnings,
      first.warnings, List.takeWhile_eq_self_iff.2 all]
  | error e =>
    -- what the first part stopped at is among its own marks
    have stopped : (ms.takeWhile fun m => !m.part.isOversized).length ≠ ms.length := by
      intro full
      have all := List.takeWhile_eq_self_iff.1 ((List.takeWhile_prefix _).eq_of_length full)
      rw [Noted.isOk, h, List.all_eq_true.2 all] at ok
      cases ok
    rw [bind_eq_of_error h, List.takeWhile_append, if_neg stopped, first.warnings]

/-- What only goes on with a result reports the same. -/
theorem Reports.map {x : Noted α} {ms : List Mark} (reports : x.Reports ms) (f : α → β) :
    (x >>= fun a => pure (f a)).Reports ms := by
  simpa using reports.bind fun a => reports_pure (f a)

/-- Where the marks are does not matter. -/
theorem Reports.under {x : Noted α} {ms : List Mark} (reports : x.Reports ms) (i : Nat) :
    x.Reports (ms.map (Mark.under i)) := by
  refine ⟨?_, ?_⟩
  · rw [reports.isOk, List.all_map]
    rfl
  · rw [reports.warnings, List.takeWhile_map, List.map_map]
    rfl

theorem reports_each {f : α → Noted β} {as : List α} {marks : α → List Mark}
    (each : ∀ a ∈ as, (f a).Reports (marks a)) (i : Nat) : (Noted.each f as).Reports (Mark.spread marks i as) := by
  induction as generalizing i with
  | nil => exact reports_pure []
  | cons a as ih =>
    rw [List.forall_mem_cons] at each
    exact (each.1.under i).bind fun b => (ih each.2 (i + 1)).map _

end Noted

namespace Part

/-- Whether the marks of a part are reported. -/
def Told {α : Type} (p : Part) (n : Noted α) : Prop := ∃ ms, p.HasMarks ms ∧ n.Reports ms

variable {α β : Type}

theorem told_pure {p : Part} (leaf : p.parts = []) (unmarked : p.isMark = false) (a : α) : p.Told (pure a : Noted α) :=
  ⟨[], hasMarks_nil leaf unmarked, Noted.reports_pure a⟩

theorem told_warn {p : Part} {w : Warning} (leaf : p.parts = []) (call : p.warning? = some w)
    (writable : p.isOversized = false) (a : α) : p.Told (Noted.warn w a) :=
  ⟨_, hasMarks_self leaf (by simp [isMark, call]), Noted.reports_warn call writable a⟩

theorem told_fail {p : Part} (leaf : p.parts = []) (oversized : p.isOversized = true) (e : EncodeFault) :
    p.Told (Noted.fail e : Noted α) :=
  ⟨_, hasMarks_self leaf (by simp [isMark, oversized]), Noted.reports_fail oversized e⟩

/-- A stray that can be described is warned of, and the encoder stops at any other. -/
theorem told_stray {p : Part} {f : Form} {w : String → Warning} (leaf : p.parts = [])
    (call : p.warning? = some (w f.describe)) (oversized : p.isOversized = !f.isDescribable) (a : α) :
    p.Told (Noted.ofResult (textOrOversized f.describe?) >>= fun what => Noted.warn (w what) a) := by
  rw [Form.describe?]
  cases describable : f.isDescribable with
  | true => exact told_warn leaf call (by rw [oversized, describable]; rfl) a
  | false => exact told_fail leaf (by rw [oversized, describable]; rfl) .oversized

theorem told_word (s : String) (a : α) : (word s).Told (pure a : Noted α) := told_pure rfl rfl a

theorem Told.map {p : Part} {n : Noted α} (told : p.Told n) (f : α → β) : p.Told (n >>= fun a => pure (f a)) := by
  obtain ⟨ms, marks, reports⟩ := told
  exact ⟨ms, marks, reports.map f⟩

theorem Told.beside {p q : Part} {s : String} {n : Noted α} (told : q.Told n) (parts : p.parts = [.word s, q])
    (unmarked : p.isMark = false) : p.Told n := by
  obtain ⟨ms, marks, reports⟩ := told
  exact ⟨_, marks.beside parts unmarked, reports.under 1⟩

theorem told_each {p : Part} {as : List α} {f : α → Part} {g : α → Noted β} (parts : p.parts = as.map f)
    (unmarked : p.isMark = false) (each : ∀ a ∈ as, (f a).Told (g a)) : p.Told (Noted.each g as) := by
  -- of each element it is only known that it has marks
  choose! marks told using each
  exact ⟨_, hasMarks_spread parts unmarked fun a member => (told a member).1,
    Noted.reports_each (fun a member => (told a member).2) 0⟩

mutual

theorem told_type : ∀ t : TypeExpr, (type t).Told t.encode
  | .declared n ts => by
    rw [TypeExpr.encode, TypeExpr.encodeList_eq_each]
    have arguments : (types ts).Told (Noted.each TypeExpr.encode ts) := told_each rfl rfl (told_types ts)
    exact (arguments.beside rfl rfl).map _
  | .array t | .wildcard (some t) _ | .wildcard none (some t) => by
    rw [TypeExpr.encode]
    exact ((told_type t).beside rfl rfl).map _
  | .primitive _ | .typeVariable _ | .wildcard none none | .noType _ => by
    rw [TypeExpr.encode]
    exact (told_word _ _).beside rfl rfl
  | .other k d => by
    rw [TypeExpr.encode, describe_ofKind]
    exact told_warn rfl rfl rfl _
  | .stray f => by
    rw [TypeExpr.encode]
    exact told_stray rfl rfl rfl _

theorem told_types : ∀ ts : List TypeExpr, ∀ t ∈ ts, (type t).Told t.encode
  | [] => fun _ member => absurd member List.not_mem_nil
  | t :: ts => List.forall_mem_cons.2 ⟨told_type t, told_types ts⟩

end

mutual

theorem told_value : ∀ v : Value, (ofValue v).Told v.encode
  | .bool _ | .number _ | .text _ | .char _ | .enumConstant _ _ => by
    rw [Value.encode]
    exact told_pure rfl rfl _
  | .integer n => by
    rw [Value.encode]
    split
    · next writable =>
      exact told_pure rfl (by simp [ofValue, isMark, warning?, Value.warning?, isOversized, writable]) _
    · next oversized => exact told_fail rfl (by simp [ofValue, isOversized, oversized]) _
  | .nested n vs => by
    rw [Value.encode, Value.encodeArguments_eq_each]
    have all : (arguments vs).Told (Noted.each Value.encodeArgument vs) := told_each rfl rfl (told_arguments vs)
    exact (all.beside rfl rfl).map _
  | .list vs => by
    rw [Value.encode, Value.encodeList_eq_each]
    have all : (value (.list vs)).Told (Noted.each Value.encode vs) := told_each rfl rfl (told_values vs)
    exact all.map _
  | .type t => by
    rw [Value.encode]
    exact told_type t
  | .other k d => by
    rw [Value.encode, describe_ofKind]
    exact told_warn rfl rfl rfl _
  | .stray f => by
    rw [Value.encode]
    exact told_stray rfl rfl rfl _

theorem told_values : ∀ vs : List Value, ∀ v ∈ vs, (ofValue v).Told v.encode
  | [] => fun _ member => absurd member List.not_mem_nil
  | v :: vs => List.forall_mem_cons.2 ⟨told_value v, told_values vs⟩

theorem told_arguments : ∀ vs : List (String × Value), ∀ a ∈ vs, (argument a.1 a.2).Told (Value.encodeArgument a)
  | [] => fun _ member => absurd member List.not_mem_nil
  | (_, v) :: vs => List.forall_mem_cons.2 ⟨((told_value v).beside rfl rfl).map _, told_arguments vs⟩

end

/-- A part without a warning anywhere is encoded without one. -/
theorem Told.silent {p : Part} {n : Noted α} (told : p.Told n)
    (none : ∀ place q, p.at? place = some q → q.warning? = none) : n.warnings = [] := by
  obtain ⟨ms, marks, reports⟩ := told
  rw [List.eq_nil_iff_forall_not_mem]
  intro w member
  have listed : some w ∈ n.warnings.map some := List.mem_map_of_mem member
  rw [reports.warnings] at listed
  obtain ⟨⟨place, q⟩, taken, call⟩ := List.mem_map.1 listed
  have here := (marks.mem_iff place q).1 ((List.takeWhile_subset _) taken)
  rw [none place q here.1] at call
  cases call

end Part

/-! ## Placeholders -/

theorem TypeExpr.term_eq_unknownType (t : TypeExpr) :
    t.term = unknownType ↔ ∃ what, t.warning? = some (.unknownType what) := by
  cases t with
  | other | stray => simp [term, norm, written, warning?]
  | wildcard extendsBound superBound =>
    cases extendsBound <;> cases superBound <;> simp [term, norm, written, typeTerm, unknownType, warning?]
  | _ => simp [term, norm, written, declaredTerm, typeTerm, unknownType, warning?]

namespace Value

/-- An atom that has no point can only be the term of values of its sort. -/
theorem sort_of_term_eq_atom {v : Value} {s : String} (pointless : '.' ∉ s.toList) (same : v.term = .atom s) :
    v.sort = Atom.valueSort s.toList := by
  have plain : v.hasPlainConstants = true := by
    cases v with
    | enumConstant e n =>
      cases same
      exact absurd (by simp) pointless
    | nested | list => cases same
    | _ => rfl
  rw [← valueSort_term v plain, same]
  rfl

theorem term_eq_unknownType (v : Value) : v.term = unknownType ↔ ∃ what, v.warning? = some (.unknownType what) := by
  have sort : Atom.valueSort "unknown_type".toList = .type := by decide
  cases v with
  | type t => exact t.term_eq_unknownType
  | _ =>
    refine iff_of_false (fun same => ?_) (by simp [warning?])
    have sorts := sort_of_term_eq_atom (by decide) same
    rw [sort] at sorts
    cases sorts

theorem term_eq_unknownValue (v : Value) : v.term = unknownValue ↔ ∃ what, v.warning? = some (.unknownValue what) := by
  have sort : Atom.valueSort "unknown_annotation_value".toList = .unknown := by decide
  have ofType (t : TypeExpr) (what : String) : t.warning? ≠ some (.unknownValue what) := by
    cases t <;> simp [TypeExpr.warning?]
  cases v with
  | other | stray => simp [term, warning?]
  | _ =>
    refine iff_of_false (fun same => ?_) ?_
    · have sorts := sort_of_term_eq_atom (by decide) same
      rw [sort] at sorts
      cases sorts
    · simp [warning?, ofType]

end Value

namespace Part

/-- Whether a term has a placeholder at each part that calls for a warning of its sort, and nowhere else, but for words
that are spelled like it. -/
def HasPlaceholders (p : Part) (u : Term) (spelling : String) (sort : String → Warning) : Prop :=
  ∀ place, u.at? place = some (.atom spelling) ↔
    (∃ q what, p.at? place = some q ∧ q.warning? = some (sort what)) ∨ p.at? place = some (.word spelling)

theorem hasPlaceholders_term {spelling : String} {sort : String → Warning}
    (called : ∀ q : Part, q.term = .atom spelling ↔ (∃ what, q.warning? = some (sort what)) ∨ q = .word spelling)
    (p : Part) : p.HasPlaceholders p.term spelling sort := by
  intro place
  rw [at?_term, Option.map_eq_some_iff]
  simp only [called]
  constructor
  · rintro ⟨q, here, ⟨what, call⟩ | rfl⟩
    · exact Or.inl ⟨q, what, here, call⟩
    · exact Or.inr here
  · rintro (⟨q, what, here, call⟩ | here)
    · exact ⟨q, here, Or.inl ⟨what, call⟩⟩
    · exact ⟨_, here, Or.inr rfl⟩

theorem term_eq_unknownType (p : Part) :
    p.term = unknownType ↔ (∃ what, p.warning? = some (.unknownType what)) ∨ p = .word "unknown_type" := by
  cases p with
  | type t => simpa [term, warning?] using t.term_eq_unknownType
  | value v => simpa [term, warning?] using v.term_eq_unknownType
  | _ => simp [term, warning?, unknownType]

theorem term_eq_unknownValue (p : Part) :
    p.term = unknownValue ↔
      (∃ what, p.warning? = some (.unknownValue what)) ∨ p = .word "unknown_annotation_value" := by
  cases p with
  | type t => simpa [term, warning?, Value.term, Value.warning?] using (Value.type t).term_eq_unknownValue
  | value v => simpa [term, warning?] using v.term_eq_unknownValue
  | _ => simp [term, warning?, unknownValue]

/-- Whether the parts without a shape are accounted for: by one warning each, from left to right, and by a placeholder
each. -/
structure Accounted (p : Part) (n : Noted Term) : Prop where
  told : p.Told n
  silent : (∀ place q, p.at? place = some q → q.warning? = none) → n.warnings = []
  types : ∀ u, n.result = .ok u → p.HasPlaceholders u "unknown_type" .unknownType
  values : ∀ u, n.result = .ok u → p.HasPlaceholders u "unknown_annotation_value" .unknownValue

theorem Told.accounted {p : Part} {n : Noted Term} (told : p.Told n) (term : n.isOk = true → n.result = .ok p.term) :
    p.Accounted n := by
  have only {u : Term} (result : n.result = .ok u) : u = p.term := by
    have same := term (by rw [Noted.isOk, result]; rfl)
    rw [result] at same
    cases same
    rfl
  refine ⟨told, told.silent, fun u result => ?_, fun u result => ?_⟩
  · rw [only result]
    exact hasPlaceholders_term term_eq_unknownType p
  · rw [only result]
    exact hasPlaceholders_term term_eq_unknownValue p

end Part

/-- **Every placeholder is reported.** A type or a value has a term if and only if every integer that the term or a
warning shows can be written, and a type without strays always has one. Each part without a shape that is reached calls
for one warning, from left to right and up to the first part with an integer that cannot be written, and the term has
placeholders where these parts are. -/
theorem placeholders_reported (t : TypeExpr) (v : Value) :
    (t.encode.isOk = t.isWritable ∧ (t.isProper = true → t.isWritable = true) ∧
      (Part.type t).Accounted t.encode) ∧
    (v.encode.isOk = v.isWritable ∧ (Part.ofValue v).Accounted v.encode) := by
  refine ⟨⟨t.isOk_encode, t.isWritable_of_isProper, (Part.told_type t).accounted fun ok => ?_⟩,
    v.isOk_encode, (Part.told_value v).accounted fun ok => ?_⟩
  · exact t.result_encode (t.isOk_encode ▸ ok)
  · rw [Part.term_ofValue]
    exact v.result_encode (v.isOk_encode ▸ ok)

/-- Behind an integer with too many digits nothing is reported. -/
theorem unreported_behind_oversized :
    let v : Value := .list [.other "ERROR" "a", .integer Numeral.writableBound, .other "ERROR" "b"]
    v.encode.isOk = false ∧ v.encode.warnings = [.unknownValue "ERROR for a"] := by
  have oversized := Numeral.not_isWritable_writableBound
  generalize (Numeral.writableBound : Int) = n at oversized ⊢
  intro v
  have encoded : v.encode = ⟨[.unknownValue "ERROR for a"], .error .oversized⟩ := by
    simp [v, Value.encode, Value.encodeList, oversized, describe_ofKind, described, Noted.warn, Noted.fail, bind]
  rw [encoded]
  exact ⟨rfl, rfl⟩

end ProgramFacts
