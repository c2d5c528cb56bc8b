import ProgramFacts.Facts.Doc
import ProgramFacts.Facts.Noted

/-!
# Walks

A walk over part of a model writes finished facts, warns, counts, and ends with a result or at a part that has
no term. It starts from nothing: what a walk does depends on the part walked alone, and the walks of the
parts follow one another.
-/

namespace ProgramFacts

/-- Where a finished fact belongs. -/
inductive Key
  | module (name : String)
  | package (name : String)
  | type (package name : String)
deriving DecidableEq

/-- What a walk does, in order. -/
inductive Event
  | warning (w : Warning)
  | write (key : Key) (fact : Term)

/-- How much of each sort has been met. -/
structure Tally where
  modules : Nat := 0
  packages : Nat := 0
  types : Nat := 0
  methods : Nat := 0
  constructors : Nat := 0
  fields : Nat := 0
  skipped : Nat := 0
deriving DecidableEq

instance : Add Tally where
  add a b :=
    { modules := a.modules + b.modules
      packages := a.packages + b.packages
      types := a.types + b.types
      methods := a.methods + b.methods
      constructors := a.constructors + b.constructors
      fields := a.fields + b.fields
      skipped := a.skipped + b.skipped }

/-- The events, the counts and the result of walking a part. -/
structure Walk (α : Type) where
  events : List Event
  tally : Tally
  result : Except EncodeFault α

namespace Walk

instance : Monad Walk where
  pure a := ⟨[], {}, .ok a⟩
  bind x f :=
    match x.result with
    | .ok a =>
      let y := f a
      ⟨x.events ++ y.events, x.tally + y.tally, y.result⟩
    | .error e => ⟨x.events, x.tally, .error e⟩

/-- A walk that only warns. -/
def ofNoted {α : Type} (n : Noted α) : Walk α := ⟨n.warnings.map .warning, {}, n.result⟩

/-- A walk that does nothing but may fail. -/
def ofResult {α : Type} (r : Except EncodeFault α) : Walk α := ⟨[], {}, r⟩

/-- Counts. -/
def count (t : Tally) : Walk Unit := ⟨[], t, .ok ()⟩

/-- Writes a finished fact. -/
def write (key : Key) (fact : Term) : Walk Unit := ⟨[.write key fact], {}, .ok ()⟩

/-- Leaves something out. -/
def skip (w : Warning) : Walk Unit := ⟨[.warning w], { skipped := 1 }, .ok ()⟩

/-- The facts that a walk writes. -/
def writes {α : Type} (w : Walk α) : List (Key × Term) :=
  w.events.filterMap fun e => match e with
    | .write key fact => some (key, fact)
    | .warning _ => none

/-- The warnings of a walk. -/
def warnings {α : Type} (w : Walk α) : List Warning :=
  w.events.filterMap fun e => match e with
    | .warning w => some w
    | .write _ _ => none

end Walk

end ProgramFacts
