import Mathlib.Data.List.Forall2
import ProgramFacts.Facts.Walk

/-!
# What walks do one after the other

A walk that is made of two does what the first does, and what the second does only if the first comes to its end.
From this follow the questions that are asked of every walk: whether it comes to its end (`isOk`), what it can come to
(`Ends`), and whether what it writes is, in order, what a list calls for (`Answers`).
-/

namespace ProgramFacts

namespace Noted

variable {α β : Type}

/-- Whether there is a result. -/
def isOk (n : Noted α) : Bool := n.result.isOk

@[simp] theorem isOk_pure (a : α) : (pure a : Noted α).isOk = true := rfl

@[simp] theorem isOk_warn (w : Warning) (a : α) : (Noted.warn w a).isOk = true := rfl

theorem isOk_bind {x : Noted α} {f : α → Noted β} {b : Bool} (next : ∀ a, (f a).isOk = b) :
    (x >>= f).isOk = (x.isOk && b) := by
  cases h : x.result with
  | ok a =>
    rw [bind_eq_of_ok h, ← next a]
    simp [isOk, h, Except.toBool]
  | error e =>
    rw [bind_eq_of_error h]
    simp [isOk, h, Except.toBool]

/-- What only goes on with a result does not change whether there is one. -/
theorem isOk_bind_pure {x : Noted α} {f : α → β} : (x >>= fun a => pure (f a)).isOk = x.isOk := by
  rw [isOk_bind (b := true) fun _ => rfl, Bool.and_true]

theorem isOk_each (f : α → Noted β) (as : List α) : (each f as).isOk = as.all fun a => (f a).isOk := by
  induction as with
  | nil => rfl
  | cons a as ih => rw [each, isOk_bind (fun b => isOk_bind_pure), ih, List.all_cons]

end Noted

namespace Walk

variable {α β : Type}

theorem bind_of_ok {x : Walk α} {a : α} (h : x.result = .ok a) (f : α → Walk β) :
    x >>= f = ⟨x.events ++ (f a).events, x.tally + (f a).tally, (f a).result⟩ := by
  simp [bind, h]

theorem bind_of_error {x : Walk α} {e : EncodeFault} (h : x.result = .error e) (f : α → Walk β) :
    x >>= f = ⟨x.events, x.tally, .error e⟩ := by
  simp [bind, h]

theorem result_bind_of_ok {x : Walk α} {a : α} (h : x.result = .ok a) (f : α → Walk β) :
    (x >>= f).result = (f a).result := by
  rw [bind_of_ok h]

/-- A walk that came to its end went through both of its parts. -/
theorem result_bind_eq_ok {x : Walk α} {f : α → Walk β} {b : β} :
    (x >>= f).result = .ok b ↔ ∃ a, x.result = .ok a ∧ (f a).result = .ok b := by
  cases h : x.result with
  | ok a => simp [bind_of_ok h]
  | error e => simp [bind_of_error h]

@[simp] theorem result_pure (a : α) : (pure a : Walk α).result = .ok a := rfl

/-! ## Coming to an end -/

/-- Whether the walk comes to its end. -/
def isOk (w : Walk α) : Bool := w.result.isOk

theorem isOk_iff {w : Walk α} : w.isOk = true ↔ ∃ a, w.result = .ok a := by
  cases h : w.result <;> simp [isOk, h, Except.toBool]

theorem isOk_of_error {w : Walk α} {e : EncodeFault} (h : w.result = .error e) : w.isOk = false := by
  simp [isOk, h, Except.toBool]

@[simp] theorem isOk_pure (a : α) : (pure a : Walk α).isOk = true := rfl

theorem isOk_bind {x : Walk α} {f : α → Walk β} {b : Bool} (next : ∀ a, (f a).isOk = b) :
    (x >>= f).isOk = (x.isOk && b) := by
  cases h : x.result with
  | ok a =>
    rw [bind_of_ok h, ← next a]
    simp [isOk, h, Except.toBool]
  | error e =>
    rw [bind_of_error h]
    simp [isOk, h, Except.toBool]

/-- Two parts of which it is known whether they come to their end. -/
theorem isOk_then {x : Walk α} {f : α → Walk β} {b c : Bool} (first : x.isOk = b) (next : ∀ a, (f a).isOk = c) :
    (x >>= f).isOk = (b && c) := by
  rw [isOk_bind next, first]

/-- A second part that comes to its end in any case leaves the question to the first. -/
theorem isOk_before {x : Walk α} {f : α → Walk β} {b : Bool} (first : x.isOk = b)
    (next : ∀ a, (f a).isOk = true) : (x >>= f).isOk = b := by
  rw [isOk_bind next, first, Bool.and_true]

/-- A first part that comes to its end leaves the question to the second. -/
theorem isOk_after {x : Walk α} {f : α → Walk β} {b : Bool} (first : x.isOk = true)
    (next : ∀ a, (f a).isOk = b) : (x >>= f).isOk = b := by
  rw [isOk_bind next, first, Bool.true_and]

/-- Whether all that a walk can come to has a property. -/
def Ends (P : α → Prop) (w : Walk α) : Prop := ∀ a, w.result = .ok a → P a

theorem ends_pure {P : α → Prop} {a : α} (h : P a) : (pure a : Walk α).Ends P := by
  intro b same
  cases same
  exact h

/-- What a walk comes to is up to its last part. -/
theorem ends_bind {P : β → Prop} {x : Walk α} {f : α → Walk β}
    (next : ∀ a, x.result = .ok a → (f a).Ends P) : (x >>= f).Ends P := by
  intro b ended
  obtain ⟨a, first, last⟩ := result_bind_eq_ok.1 ended
  exact next a first b last

/-! ## Writing in order -/

@[simp] theorem writes_write (key : Key) (fact : Term) : (write key fact).writes = [(key, fact)] := rfl

@[simp] theorem writes_ofNoted (n : Noted α) : (ofNoted n).writes = [] := by
  simp [writes, ofNoted, List.filterMap_map]

theorem writes_bind_of_ok {x : Walk α} {a : α} (h : x.result = .ok a) (f : α → Walk β) :
    (x >>= f).writes = x.writes ++ (f a).writes := by
  rw [bind_of_ok h]
  exact List.filterMap_append

theorem writes_bind_of_error {x : Walk α} {e : EncodeFault} (h : x.result = .error e) (f : α → Walk β) :
    (x >>= f).writes = x.writes := by
  rw [bind_of_error h]
  rfl

/-- Two parts that write nothing. -/
theorem writes_bind_eq_nil {x : Walk α} {f : α → Walk β} (first : x.writes = []) (next : ∀ a, (f a).writes = []) :
    (x >>= f).writes = [] := by
  cases h : x.result with
  | ok a => rw [writes_bind_of_ok h, first, next a, List.append_nil]
  | error e => rw [writes_bind_of_error h, first]

/-- Warnings are no writes. -/
theorem writes_noted {n : Noted α} {f : α → Walk β} (next : ∀ a, (f a).writes = []) :
    (ofNoted n >>= f).writes = [] :=
  writes_bind_eq_nil (writes_ofNoted n) next

variable {σ : Type} {R : σ → Key × Term → Prop}

/-- The writes answer to the list, from its start and in order, and to all of it if the walk comes to its end. If
`strict` is set, only a walk that comes to its end answers to all of it. -/
def Answers (R : σ → Key × Term → Prop) (strict : Bool) (todo : List σ) (w : Walk α) : Prop :=
  ∃ done rest, todo = done ++ rest ∧ List.Forall₂ R done w.writes ∧ (w.isOk = true → rest = []) ∧
    (strict = true → rest = [] → w.isOk = true)

theorem answers_nil {w : Walk α} (quiet : w.writes = []) : w.Answers R false [] := by
  refine ⟨[], [], rfl, ?_, fun _ => rfl, fun impossible => Bool.noConfusion impossible⟩
  rw [quiet]
  exact .nil

theorem answers_write {s : σ} {key : Key} {fact : Term} (h : R s (key, fact)) {y : Walk β} (ok : y.isOk = true)
    (quiet : y.writes = []) : (write key fact >>= fun _ => y).Answers R true [s] := by
  have both : (write key fact >>= fun _ => y).writes = [(key, fact)] := by
    rw [writes_bind_of_ok (a := ()) rfl, quiet, writes_write, List.append_nil]
  refine ⟨[s], [], rfl, ?_, fun _ => rfl, fun _ _ => isOk_after rfl fun _ => ok⟩
  rw [both]
  exact .cons h .nil

theorem Answers.relax {strict : Bool} {todo : List σ} {w : Walk α} (h : w.Answers R strict todo) :
    w.Answers R false todo := by
  obtain ⟨done, rest, split, wrote, whole, -⟩ := h
  exact ⟨done, rest, split, wrote, whole, fun impossible => Bool.noConfusion impossible⟩

/-- One walk after the other. A first part that may fail with nothing left to write must be followed by one that
has something to write, if the whole is to be strict. -/
theorem Answers.bind {x : Walk α} {f : α → Walk β} {xs ys : List σ} {strict strict' : Bool}
    (first : x.Answers R strict xs) (next : ∀ a, x.result = .ok a → (f a).Answers R strict' ys)
    (told : strict' = true → strict = true ∨ ys ≠ []) : (x >>= f).Answers R strict' (xs ++ ys) := by
  obtain ⟨done, rest, rfl, wrote, whole, only⟩ := first
  cases h : x.result with
  | ok a =>
    obtain rfl := whole (isOk_iff.2 ⟨a, h⟩)
    obtain ⟨done', rest', rfl, wrote', whole', only'⟩ := next a h
    refine ⟨done ++ done', rest', by simp, ?_, ?_⟩
    · rw [writes_bind_of_ok h]
      exact List.rel_append wrote wrote'
    · rw [bind_of_ok h]
      exact ⟨whole', only'⟩
  | error e =>
    refine ⟨done, rest ++ ys, by simp, ?_, ?_⟩
    · rw [writes_bind_of_error h]
      exact wrote
    · rw [bind_of_error h]
      refine ⟨fun impossible => Bool.noConfusion impossible, fun tight nothing => ?_⟩
      obtain ⟨noRest, noMore⟩ := List.append_eq_nil_iff.1 nothing
      rcases told tight with strict | more
      · have ok := only strict noRest
        rw [isOk_of_error h] at ok
        exact Bool.noConfusion ok
      · exact absurd noMore more

/-- A part that writes nothing and comes to its end in any case may follow. -/
theorem Answers.before {x : Walk α} {f : α → Walk β} {xs : List σ} {strict : Bool} (first : x.Answers R strict xs)
    (quiet : ∀ a, (f a).writes = []) (ok : ∀ a, (f a).isOk = true) : (x >>= f).Answers R strict xs := by
  have writes : (x >>= f).writes = x.writes := by
    cases h : x.result with
    | ok a => rw [writes_bind_of_ok h, quiet a, List.append_nil]
    | error e => exact writes_bind_of_error h f
  obtain ⟨done, rest, split, wrote, whole, only⟩ := first
  refine ⟨done, rest, split, ?_, ?_⟩
  · rw [writes]
    exact wrote
  · rw [isOk_before (b := x.isOk) rfl ok]
    exact ⟨whole, only⟩

end Walk

end ProgramFacts
