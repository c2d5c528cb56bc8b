import ProgramFacts.Facts.Fault
import ProgramFacts.Facts.Warning

/-!
# Results with warnings
-/

namespace ProgramFacts

/-- The warnings that arose, in order, on the way to a result or to a fault. -/
structure Noted (α : Type) where
  warnings : List Warning
  result : Except EncodeFault α

namespace Noted

instance : Monad Noted where
  pure a := ⟨[], .ok a⟩
  bind x f :=
    match x.result with
    | .ok a =>
      let y := f a
      ⟨x.warnings ++ y.warnings, y.result⟩
    | .error e => ⟨x.warnings, .error e⟩

@[simp] theorem result_pure {α : Type} (a : α) : (pure a : Noted α).result = .ok a := rfl

@[simp] theorem warnings_pure {α : Type} (a : α) : (pure a : Noted α).warnings = [] := rfl

theorem bind_eq_of_ok {α β : Type} {x : Noted α} {a : α} (h : x.result = .ok a) (f : α → Noted β) :
    x >>= f = ⟨x.warnings ++ (f a).warnings, (f a).result⟩ := by
  simp [bind, h]

theorem bind_eq_of_error {α β : Type} {x : Noted α} {e : EncodeFault} (h : x.result = .error e)
    (f : α → Noted β) : x >>= f = ⟨x.warnings, .error e⟩ := by
  simp [bind, h]

/-- A result that calls for a warning. -/
def warn {α : Type} (w : Warning) (a : α) : Noted α := ⟨[w], .ok a⟩

/-- No result. -/
def fail {α : Type} (e : EncodeFault) : Noted α := ⟨[], .error e⟩

/-- A result or a fault without a warning. -/
def ofResult {α : Type} (r : Except EncodeFault α) : Noted α := ⟨[], r⟩

/-- The results for a list, one after the other. -/
def each {α β : Type} (f : α → Noted β) : List α → Noted (List β)
  | [] => pure []
  | a :: as => do
    let b ← f a
    let bs ← each f as
    pure (b :: bs)

end Noted

end ProgramFacts
