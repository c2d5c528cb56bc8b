import ProgramFacts.Facts.Scope
import Mathlib.Data.List.Nodup

/-!
# The types that have facts

A type has a fact if it is of a known shape and so are all types around it. These types are listed in the order in
which they are written, each behind those that are in it. The list is told apart from one that forgets or repeats a
type by the places of types: it runs through every place at which there is such a type, and through each of them once.

A type of no known shape might as well be empty (`pruned`): a walk does not look into it.
-/

namespace ProgramFacts

/-- Whether a type has a fact of its own. -/
def TypeHead.isKnown (t : TypeHead) : Bool := (TypeShape.ofKind? t.kind).isSome

namespace Declaration

mutual

/-- The types of known shape in a declaration, itself the last, with their members. -/
def types : Declaration → List (TypeHead × List Declaration)
  | .ofType t ds => if t.isKnown then typesIn ds ++ [(t, ds)] else []
  | .ofExecutable _ | .ofVariable _ | .stray _ => []

def typesIn : List Declaration → List (TypeHead × List Declaration)
  | [] => []
  | d :: ds => d.types ++ typesIn ds

end

/-! ## Places

A place is a list of numbers: the first picks one of the members of a package, each of the others one of the members
of the type before it.
-/

/-- The type at a place within a declaration, if it and all types on the way to it are of known shape. -/
def typeAt? : Declaration → List Nat → Option (TypeHead × List Declaration)
  | .ofType t ds, [] => if t.isKnown then some (t, ds) else none
  | .ofType t ds, i :: place => if t.isKnown then (ds[i]?).bind fun d => d.typeAt? place else none
  | .ofExecutable _, _ | .ofVariable _, _ | .stray _, _ => none

/-- The type at a place within some members. -/
def typeAtIn? (ds : List Declaration) : List Nat → Option (TypeHead × List Declaration)
  | [] => none
  | i :: place => (ds[i]?).bind fun d => d.typeAt? place

mutual

/-- The places of the types of known shape in a declaration, in the order in which they are written. -/
def places : Declaration → List (List Nat)
  | .ofType t ds => if t.isKnown then placesIn ds ++ [[]] else []
  | .ofExecutable _ | .ofVariable _ | .stray _ => []

def placesIn : List Declaration → List (List Nat)
  | [] => []
  | d :: ds => d.places.map (0 :: ·) ++ (placesIn ds).map (List.modifyHead Nat.succ)

end

theorem later_injective : Function.Injective (List.modifyHead Nat.succ) := by
  intro a b same
  cases a <;> cases b <;> simp_all

theorem nil_not_mem_placesIn (ds : List Declaration) : [] ∉ placesIn ds := by
  induction ds with
  | nil => exact List.not_mem_nil
  | cons d ds ih =>
    rw [placesIn, List.mem_append, not_or]
    refine ⟨by simp, ?_⟩
    intro member
    obtain ⟨place, within, shifted⟩ := List.mem_map.1 member
    rw [List.modifyHead_eq_nil_iff] at shifted
    exact ih (shifted ▸ within)

/-- Below a type of known shape, places are looked up among its members. -/
theorem typeAt?_of_mem {t : TypeHead} (known : t.isKnown = true) {ds : List Declaration} {place : List Nat}
    (member : place ∈ placesIn ds) : typeAt? (.ofType t ds) place = typeAtIn? ds place := by
  cases place with
  | nil => exact absurd member (nil_not_mem_placesIn ds)
  | cons i place => rw [typeAt?, if_pos known, typeAtIn?]

theorem typeAtIn?_succ (d : Declaration) (ds : List Declaration) (place : List Nat) :
    typeAtIn? (d :: ds) (place.modifyHead Nat.succ) = typeAtIn? ds place := by
  cases place <;> rfl

mutual

/-- What is at the places is what is listed, in this order. -/
theorem map_places : ∀ d : Declaration, d.places.map d.typeAt? = d.types.map some
  | .ofType t ds => by
    rw [places, types]
    split
    · next known =>
      rw [List.map_append, List.map_congr_left fun place => typeAt?_of_mem known, map_placesIn ds, List.map_append]
      simp [typeAt?, known]
    · rfl
  | .ofExecutable _ => rfl
  | .ofVariable _ => rfl
  | .stray _ => rfl

theorem map_placesIn : ∀ ds : List Declaration, (placesIn ds).map (typeAtIn? ds) = (typesIn ds).map some
  | [] => rfl
  | d :: ds => by
    have first : (d.places.map (0 :: ·)).map (typeAtIn? (d :: ds)) = d.types.map some := by
      rw [List.map_map, ← map_places d]
      rfl
    have others : ((placesIn ds).map (List.modifyHead Nat.succ)).map (typeAtIn? (d :: ds)) =
        (typesIn ds).map some := by
      rw [List.map_map, ← map_placesIn ds]
      exact List.map_congr_left fun place _ => typeAtIn?_succ d ds place
    rw [placesIn, typesIn, List.map_append, first, others, List.map_append]

end

mutual

theorem mem_places : ∀ (d : Declaration) (place : List Nat), place ∈ d.places ↔ (d.typeAt? place).isSome = true
  | .ofType t ds, place => by
    rw [places]
    split
    · next known =>
      rw [List.mem_append, mem_placesIn ds place, List.mem_singleton]
      cases place with
      | nil => simp [typeAt?, known]
      | cons i place => simp [typeAt?, typeAtIn?, known]
    · next unknown => cases place <;> simp [typeAt?, unknown]
  | .ofExecutable _, _ => by simp [places, typeAt?]
  | .ofVariable _, _ => by simp [places, typeAt?]
  | .stray _, _ => by simp [places, typeAt?]

/-- No place is forgotten. -/
theorem mem_placesIn : ∀ (ds : List Declaration) (place : List Nat),
    place ∈ placesIn ds ↔ (typeAtIn? ds place).isSome = true
  | [], place => by cases place <;> simp [placesIn, typeAtIn?]
  | d :: ds, [] => by simp [nil_not_mem_placesIn, typeAtIn?]
  | d :: ds, 0 :: place => by
    have others : (0 :: place) ∉ (placesIn ds).map (List.modifyHead Nat.succ) := by
      intro member
      obtain ⟨other, -, shifted⟩ := List.mem_map.1 member
      cases other <;> cases shifted
    rw [placesIn, List.mem_append, or_iff_left others]
    simp [typeAtIn?, mem_places d place]
  | d :: ds, (i + 1) :: place => by
    have first : ((i + 1) :: place) ∉ d.places.map (0 :: ·) := by simp
    have shift : ((i + 1) :: place) ∈ (placesIn ds).map (List.modifyHead Nat.succ) ↔ (i :: place) ∈ placesIn ds :=
      List.mem_map_of_injective (a := i :: place) later_injective
    rw [placesIn, List.mem_append, or_iff_right first, shift, mem_placesIn ds (i :: place)]
    rfl

end

mutual

theorem nodup_places : ∀ d : Declaration, d.places.Nodup
  | .ofType t ds => by
    rw [places]
    split
    · refine (nodup_placesIn ds).append (List.nodup_singleton []) ?_
      rw [List.disjoint_singleton]
      exact nil_not_mem_placesIn ds
    · exact List.nodup_nil
  | .ofExecutable _ => List.nodup_nil
  | .ofVariable _ => List.nodup_nil
  | .stray _ => List.nodup_nil

/-- No place is repeated. -/
theorem nodup_placesIn : ∀ ds : List Declaration, (placesIn ds).Nodup
  | [] => List.nodup_nil
  | d :: ds => by
    rw [placesIn]
    refine ((nodup_places d).map List.cons_injective).append ((nodup_placesIn ds).map later_injective) ?_
    -- the first number is zero on one side and a successor on the other
    intro place first later
    obtain ⟨inner, -, rfl⟩ := List.mem_map.1 first
    obtain ⟨other, -, shifted⟩ := List.mem_map.1 later
    cases other <;> cases shifted

end

/-! ## Types of no known shape -/

mutual

/-- The declaration with nothing left in types of no known shape. -/
def pruned : Declaration → Declaration
  | .ofType t ds => if t.isKnown then .ofType t (prunedIn ds) else .ofType t []
  | .ofExecutable e => .ofExecutable e
  | .ofVariable v => .ofVariable v
  | .stray f => .stray f

def prunedIn : List Declaration → List Declaration
  | [] => []
  | d :: ds => d.pruned :: prunedIn ds

end

end Declaration

def Package.pruned (p : Package) : Package := { p with members := Declaration.prunedIn p.members }

def Scope.pruned : Scope → Scope
  | .module m => .module m
  | .package p => .package p.pruned

def Program.pruned (p : Program) : Program := { p with packages := p.packages.map Package.pruned }

/-- A type of no known shape is walked alike whatever is in it. -/
theorem TypeHead.visitWith_of_unknown {t : TypeHead} (unknown : t.isKnown ≠ true) (docs : Bool) (package : String)
    (a b : Walk (List Term)) : t.visitWith docs package a = t.visitWith docs package b := by
  have none : TypeShape.ofKind? t.kind = none := by simpa [TypeHead.isKnown] using unknown
  rw [TypeHead.visitWith, TypeHead.visitWith, none]

mutual

theorem visitMember_pruned (docs : Bool) (package : String) :
    ∀ d : Declaration, visitMember docs package d.pruned = visitMember docs package d
  | .ofType t ds => by
    rw [Declaration.pruned]
    split
    · rw [visitMember, visitMember, visitMembers_pruned docs package ds]
    · next unknown => rw [visitMember, visitMember, TypeHead.visitWith_of_unknown unknown]
  | .ofExecutable _ => rfl
  | .ofVariable _ => rfl
  | .stray _ => rfl

theorem visitMembers_pruned (docs : Bool) (package : String) :
    ∀ ds : List Declaration, visitMembers docs package (Declaration.prunedIn ds) = visitMembers docs package ds
  | [] => rfl
  | d :: ds => by
    rw [Declaration.prunedIn, visitMembers, visitMembers, visitMember_pruned docs package d,
      visitMembers_pruned docs package ds]

end

theorem visitPackageMembers_pruned (docs : Bool) (package : String) (ds : List Declaration) :
    visitPackageMembers docs package (Declaration.prunedIn ds) = visitPackageMembers docs package ds := by
  induction ds with
  | nil => rfl
  | cons d ds ih =>
    have first : visitPackageMember docs package d.pruned = visitPackageMember docs package d := by
      cases d with
      | ofType t members =>
        rw [Declaration.pruned]
        split
        · rw [visitPackageMember, visitPackageMember, visitType, visitType, visitMembers_pruned]
        · next unknown =>
          rw [visitPackageMember, visitPackageMember, visitType, visitType, TypeHead.visitWith_of_unknown unknown]
      | ofExecutable e => rfl
      | ofVariable v => rfl
      | stray f => rfl
    rw [Declaration.prunedIn, visitPackageMembers, visitPackageMembers, first, ih]

theorem Scope.visit_pruned (docs : Bool) (s : Scope) : s.pruned.visit docs = s.visit docs := by
  cases s with
  | module m => rfl
  | package p =>
    change p.pruned.visit docs = p.visit docs
    rw [Package.visit, Package.visit, Package.pruned, visitPackageMembers_pruned]

theorem Program.scopes_pruned (p : Program) : p.pruned.scopes = p.scopes.map Scope.pruned := by
  simp [Program.scopes, Program.pruned, Scope.pruned, Function.comp_def]

/-- A walk does the same on a program with nothing left in its types of no known shape. -/
theorem Program.walk_pruned (docs : Bool) (p : Program) : p.pruned.walk docs = p.walk docs := by
  have scopes : ∀ (ss : List Scope) (i : Index),
      walkScopes docs i (ss.map Scope.pruned) = walkScopes docs i ss := by
    intro ss
    induction ss with
    | nil => exact fun _ => rfl
    | cons s ss ih =>
      intro i
      have enter : i.enter s.pruned = i.enter s := by cases s <;> rfl
      rw [List.map_cons, walkScopes, walkScopes, Scope.visit_pruned, enter, ih]
  rw [Program.walk, Program.walk, Program.scopes_pruned, scopes]

end ProgramFacts
