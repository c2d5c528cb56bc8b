import ProgramFacts.Proofs.NumberTexts
import ProgramFacts.Proofs.TypeTerms
import ProgramFacts.Proofs.Writable

/-!
# What the terms of annotation values tell

Most values become atoms, which are told apart by their texts alone: a text is in apostrophes, an integer has nothing
but digits and a sign, a number has a point behind its first digit or is one of three words, and a constant has a point
but does not begin like a number. This takes constants whose names are proper. The term of a value then tells its sort,
and within a sort it tells the value, except that a character and a text are alike, and that all values without a shape
are.
-/

namespace ProgramFacts

open Numeral (factStyle messageStyle)

/-- The sorts of values that terms tell apart. -/
inductive ValueSort
  | bool
  | integer
  | number
  | text
  | constant
  | note
  | list
  | type
  | unknown
deriving DecidableEq

namespace Value

def sort : Value → ValueSort
  | .bool _ => .bool
  | .integer _ => .integer
  | .number _ => .number
  | .text _ | .char _ => .text
  | .enumConstant _ _ => .constant
  | .nested _ _ => .note
  | .list _ => .list
  | .type _ => .type
  | .other _ _ | .stray _ => .unknown

/-- Whether a constant can be told from numbers and texts, and its name from what encloses it. -/
def isPlainConstant (enclosing name : String) : Bool :=
  !(enclosing.toList.head?.any fun c => c.isDigit || c == '-' || c == Atom.quote) && !name.toList.contains '.'

mutual

/-- Whether all constants in a value are plain. -/
def hasPlainConstants : Value → Bool
  | .enumConstant e n => isPlainConstant e n
  | .nested _ vs => argumentsHavePlainConstants vs
  | .list vs => allHavePlainConstants vs
  | .bool _ | .integer _ | .number _ | .text _ | .char _ | .type _ | .other _ _ | .stray _ => true

def allHavePlainConstants : List Value → Bool
  | [] => true
  | v :: vs => v.hasPlainConstants && allHavePlainConstants vs

def argumentsHavePlainConstants : List (String × Value) → Bool
  | [] => true
  | (_, v) :: vs => v.hasPlainConstants && argumentsHavePlainConstants vs

end

mutual

/-- Whether two values are equal as far as terms tell. -/
def Alike : Value → Value → Prop
  | .bool b, w => w = .bool b
  | .integer n, w => w = .integer n
  | .number x, w => ∃ y, w = .number y ∧ x.text messageStyle = y.text messageStyle
  | .text s, w | .char s, w => w = .text s ∨ w = .char s
  | .enumConstant e n, w => w = .enumConstant e n
  | .nested n vs, w => ∃ ws, w = .nested n ws ∧ AlikeArguments vs ws
  | .list vs, w => ∃ ws, w = .list ws ∧ AlikeList vs ws
  | .type t, w => ∃ u, w = .type u ∧ t.encode.result = u.encode.result
  | .other _ _, w | .stray _, w => w.sort = .unknown

/-- Whether the values of two lists are alike, one by one. -/
def AlikeList : List Value → List Value → Prop
  | [], ws => ws = []
  | v :: vs, ws => ∃ w ws', ws = w :: ws' ∧ v.Alike w ∧ AlikeList vs ws'

/-- Whether the arguments of two annotations have the same names and values alike, one by one. -/
def AlikeArguments : List (String × Value) → List (String × Value) → Prop
  | [], ws => ws = []
  | (n, v) :: vs, ws => ∃ w ws', ws = (n, w) :: ws' ∧ v.Alike w ∧ AlikeArguments vs ws'

end

mutual

/-- The term of a value that is writable. -/
def term : Value → Term
  | .bool b => .atom (if b then "true" else "false")
  | .integer n => .atom (toString n)
  | .number x => .atom (x.text factStyle)
  | .text s | .char s => .atom (apostrophized s)
  | .enumConstant e n => .atom (e ++ "." ++ n)
  | .nested n vs => annotationTerm n (argumentTerms vs)
  | .list vs => .list (terms vs)
  | .type t => t.term
  | .other _ _ | .stray _ => unknownValue

def terms : List Value → List Term
  | [] => []
  | v :: vs => v.term :: terms vs

def argumentTerms : List (String × Value) → List Term
  | [] => []
  | (n, v) :: vs => .compound "annotation_argument" [.atom n, v.term] :: argumentTerms vs

end

mutual

theorem result_encode : ∀ v : Value, v.isWritable = true → v.encode.result = .ok v.term
  | .bool _ | .number _ | .text _ | .char _ | .enumConstant _ _ | .other _ _ => fun _ => by
    rw [encode]
    rfl
  | .stray f => fun writable => by
    rw [isWritable] at writable
    rw [encode, Form.describe?, if_pos writable]
    rfl
  | .integer n => fun writable => by
    rw [isWritable] at writable
    rw [encode, if_pos writable, Noted.result_pure, term]
  | .nested n vs => fun writable => by
    rw [isWritable] at writable
    rw [encode, Noted.bind_eq_of_ok (result_encodeArguments vs writable)]
    rfl
  | .list vs => fun writable => by
    rw [isWritable] at writable
    rw [encode, Noted.bind_eq_of_ok (result_encodeList vs writable)]
    rfl
  | .type t => fun writable => by
    rw [encode, t.result_encode writable]
    rfl

theorem result_encodeList : ∀ vs : List Value, areWritable vs = true → (encodeList vs).result = .ok (terms vs)
  | [] => fun _ => by
    rw [encodeList]
    rfl
  | v :: vs => fun writable => by
    rw [areWritable, Bool.and_eq_true] at writable
    rw [encodeList, Noted.bind_eq_of_ok (v.result_encode writable.1),
      Noted.bind_eq_of_ok (result_encodeList vs writable.2)]
    rfl

theorem result_encodeArguments : ∀ vs : List (String × Value), areArgumentsWritable vs = true →
    (encodeArguments vs).result = .ok (argumentTerms vs)
  | [] => fun _ => by
    rw [encodeArguments]
    rfl
  | (n, v) :: vs => fun writable => by
    rw [areArgumentsWritable, Bool.and_eq_true] at writable
    rw [encodeArguments, Noted.bind_eq_of_ok (v.result_encode writable.1),
      Noted.bind_eq_of_ok (result_encodeArguments vs writable.2)]
    rfl

end

end Value

/-! ## Sorts -/

/-- The sort of the values that have an atom. -/
def Atom.valueSort (cs : List Char) : ValueSort :=
  let numeric c := Char.isDigit c || c == '-'
  if cs.head? = some Atom.quote then .text
  else if cs.all numeric then .integer
  else if cs.head?.any numeric || cs ∈ ["NaN".toList, "Infinity".toList] then .number
  else if '.' ∈ cs then .constant
  else if cs ∈ ["true".toList, "false".toList] then .bool
  else if cs = "unknown_type".toList then .type
  else .unknown

/-- The sort of the values that have a term. -/
def Term.valueSort : Term → ValueSort
  | .atom s => Atom.valueSort s.toList
  | .compound n _ => if n = "annotation" then .note else .type
  | .list _ => .list

theorem TypeExpr.valueSort_term (t : TypeExpr) : t.term.valueSort = .type := by
  cases t with
  | wildcard extendsBound superBound =>
    cases extendsBound with
    | some _ => rfl
    | none => cases superBound <;> rfl
  | _ => rfl

namespace Value

/-- Integers are written like exponents. -/
theorem toList_toString (n : Int) : (toString n).toList = Numeral.exponentText factStyle n := by
  have digits (m : Nat) : (toString m).toList = (Nat.toDigits 10 m).leftpad 1 '0' := by
    have some? : 0 < (Nat.toDigits 10 m).length := Nat.length_toDigits_pos
    rw [Nat.toString_eq_ofList_toDigits, String.toList_ofList, List.leftpad, Nat.sub_eq_zero_of_le some?]
    rfl
  cases n with
  | ofNat m => exact digits m
  | negSucc m =>
    have signed : toString (Int.negSucc m) = "-" ++ toString (m + 1) := rfl
    rw [signed, String.toList_append, digits, Numeral.exponentText, if_pos (Int.negSucc_lt_zero m)]
    rfl

theorem numeric_of_mem_toString {n : Int} {c : Char} (member : c ∈ (toString n).toList) :
    (c.isDigit || c == '-') = true := by
  rw [toList_toString, Numeral.exponentText, List.mem_append] at member
  rcases member with sign | digit
  · split at sign
    · rw [List.mem_singleton.1 sign]
      decide
    · cases sign
  · rw [Numeral.isDigit_of_mem_padded digit, Bool.true_or]

theorem valueSort_integer (n : Int) : Atom.valueSort (toString n).toList = .integer := by
  have numeric : ∀ c ∈ (toString n).toList, (c.isDigit || c == '-') = true := fun c => numeric_of_mem_toString
  have first : (toString n).toList.head? ≠ some Atom.quote := fun start =>
    absurd (numeric Atom.quote (List.mem_of_head? start)) (by decide)
  simp only [Atom.valueSort, first, if_false, List.all_eq_true.2 numeric, if_true]

theorem valueSort_number (x : Numeral.Binary64) : Atom.valueSort (x.text factStyle).toList = .number := by
  rw [Numeral.Binary64.toList_text]
  rcases x.body_factStyle with body | body | ⟨c, cs, body, digit, point⟩
  · rw [body]
    cases x.isNegative <;> decide
  · rw [body]
    cases x.isNegative <;> decide
  · rw [body]
    have first : c ≠ Atom.quote := by
      rintro rfl
      exact absurd digit (by decide)
    have notAll : cs.all (fun c => c.isDigit || c == '-') = false :=
      List.all_eq_false.2 ⟨'.', point, by decide⟩
    cases x.isNegative
    · simp [Atom.valueSort, first, digit, notAll]
    · simp [Atom.valueSort, digit, notAll]
      decide

theorem valueSort_text (s : String) : Atom.valueSort (apostrophized s).toList = .text := by
  have start : (apostrophized s).toList.head? = some Atom.quote := by
    simp [apostrophized, Atom.quote]
  rw [Atom.valueSort, if_pos start]

theorem valueSort_constant {e n : String} (plain : isPlainConstant e n = true) :
    Atom.valueSort (e ++ "." ++ n).toList = .constant := by
  have chars : (e ++ "." ++ n).toList = e.toList ++ '.' :: n.toList := by simp
  rw [isPlainConstant, Bool.and_eq_true, Bool.not_eq_true', Bool.not_eq_true'] at plain
  have point : '.' ∈ (e ++ "." ++ n).toList := by simp
  have notAll : (e ++ "." ++ n).toList.all (fun c => c.isDigit || c == '-') = false :=
    List.all_eq_false.2 ⟨'.', point, by decide⟩
  have start : ((e ++ "." ++ n).toList.head?.any fun c => c.isDigit || c == '-' || c == Atom.quote) = false := by
    rw [chars]
    cases first : e.toList with
    | nil => rfl
    | cons c cs =>
      rw [first] at plain
      exact plain.1
  have noWord : (e ++ "." ++ n).toList ∉ ["NaN".toList, "Infinity".toList] := by
    intro word
    simp only [List.mem_cons, List.not_mem_nil, or_false] at word
    rcases word with word | word <;> exact absurd (word ▸ point) (by decide)
  generalize (e ++ "." ++ n).toList = cs at point notAll start noWord ⊢
  cases cs with
  | nil => cases point
  | cons c cs =>
    simp only [List.head?_cons, Option.any_some, Bool.or_eq_false_iff, beq_eq_false_iff_ne] at start
    simp only [Atom.valueSort, notAll, noWord, point, List.head?_cons, Option.some.injEq, start, Option.any_some,
      Bool.false_or, decide_false, if_false, if_true, Bool.false_eq_true, beq_eq_false_iff_ne.2 start.1.2]

theorem valueSort_unknown : unknownValue.valueSort = .unknown := by decide

/-- The term of a value tells its sort. -/
theorem valueSort_term (v : Value) (plain : v.hasPlainConstants = true) : v.term.valueSort = v.sort := by
  cases v with
  | bool b => cases b <;> decide
  | integer n => exact valueSort_integer n
  | number x => exact valueSort_number x
  | text s | char s => exact valueSort_text s
  | enumConstant e n => exact valueSort_constant plain
  | nested n vs => rfl
  | list vs => rfl
  | type t => exact t.valueSort_term
  | other | stray => exact valueSort_unknown

/-! ## Values with the same term -/

theorem apostrophized_inj {s r : String} : apostrophized s = apostrophized r ↔ s = r := by
  rw [← String.toList_inj, ← String.toList_inj]
  simp [apostrophized]

/-- The last point divides a constant's name from what encloses it. -/
theorem enclosing_append_inj {e f n m : String} (plain : isPlainConstant e n = true)
    (plain' : isPlainConstant f m = true) : e ++ "." ++ n = f ++ "." ++ m ↔ e = f ∧ n = m := by
  refine ⟨fun same => ?_, fun ⟨enclosing, name⟩ => by rw [enclosing, name]⟩
  have pointless {e n : String} (plain : isPlainConstant e n = true) : '.' ∉ n.toList := by
    rw [isPlainConstant, Bool.and_eq_true] at plain
    simpa using plain.2
  have chars : e.toList ++ '.' :: n.toList = f.toList ++ '.' :: m.toList := by
    simpa using congrArg String.toList same
  -- a point on one side only would be within the other side's name
  have within {a b : List Char} {c : Char} {more : List Char} (split : '.' :: a = c :: more ++ '.' :: b) : '.' ∈ a := by
    rw [List.cons_append, List.cons.injEq] at split
    rw [split.2]
    exact List.mem_append_right _ List.mem_cons_self
  rcases List.append_eq_append_iff.1 chars with ⟨more, enclosing, name⟩ | ⟨more, enclosing, name⟩
  · cases more with
    | nil =>
      rw [List.append_nil] at enclosing
      exact ⟨(String.toList_inj.1 enclosing).symm, String.toList_inj.1 (List.cons.inj name).2⟩
    | cons c more => exact absurd (within name) (pointless plain)
  · cases more with
    | nil =>
      rw [List.append_nil] at enclosing
      exact ⟨String.toList_inj.1 enclosing, (String.toList_inj.1 (List.cons.inj name).2).symm⟩
    | cons c more => exact absurd (within name) (pointless plain')

theorem Alike.sort_eq {v w : Value} (alike : v.Alike w) : w.sort = v.sort := by
  cases v <;> rw [Alike] at alike
  case bool | integer | enumConstant => rw [alike]
  case number | type | nested | list => obtain ⟨_, rfl, _⟩ := alike; rfl
  case text | char => rcases alike with rfl | rfl <;> rfl
  case other | stray => exact alike

/-- Only values of one sort have to be compared. -/
theorem term_eq_iff_of_sort {v w : Value} (plain : v.hasPlainConstants = true) (plain' : w.hasPlainConstants = true)
    (within : w.sort = v.sort → (v.term = w.term ↔ v.Alike w)) : v.term = w.term ↔ v.Alike w := by
  by_cases sorts : w.sort = v.sort
  · exact within sorts
  · refine iff_of_false (fun same => sorts ?_) fun alike => sorts alike.sort_eq
    rw [← valueSort_term v plain, same, valueSort_term w plain']

mutual

/-- Values that are writable have the same term if and only if they are alike. -/
theorem term_eq_iff : ∀ v w : Value, v.hasPlainConstants = true → w.hasPlainConstants = true →
    v.isWritable = true → w.isWritable = true → (v.term = w.term ↔ v.Alike w)
  | .bool b, w => fun plain plain' _ _ => term_eq_iff_of_sort plain plain' fun sorts => by
    cases w with
    | bool c => cases b <;> cases c <;> simp [term, Alike]
    | _ => cases sorts
  | .integer m, w => fun plain plain' _ _ => term_eq_iff_of_sort plain plain' fun sorts => by
    cases w with
    | integer n =>
      rw [term, term, Alike, Term.atom.injEq, integer.injEq, eq_comm (a := n)]
      refine ⟨fun same => Numeral.exponentText_inj (?_ : Numeral.exponentText factStyle m = _), congrArg toString⟩
      rw [← toList_toString, same, toList_toString]
    | _ => cases sorts
  | .number x, w => fun plain plain' _ _ => term_eq_iff_of_sort plain plain' fun sorts => by
    cases w with
    | number y => simp [term, Alike, Numeral.Binary64.text_factStyle_eq_iff]
    | _ => cases sorts
  | .text s, w => fun plain plain' _ _ => term_eq_iff_of_sort plain plain' fun sorts => by
    cases w with
    | text r => simp [term, Alike, apostrophized_inj, eq_comm]
    | char r => simp [term, Alike, apostrophized_inj, eq_comm]
    | _ => cases sorts
  | .char s, w => fun plain plain' _ _ => term_eq_iff_of_sort plain plain' fun sorts => by
    cases w with
    | text r => simp [term, Alike, apostrophized_inj, eq_comm]
    | char r => simp [term, Alike, apostrophized_inj, eq_comm]
    | _ => cases sorts
  | .enumConstant e n, w => fun plain plain' _ _ => term_eq_iff_of_sort plain plain' fun sorts => by
    cases w with
    | enumConstant f m =>
      rw [hasPlainConstants] at plain plain'
      simp [term, Alike, enclosing_append_inj plain plain', eq_comm]
    | _ => cases sorts
  | .nested n vs, w => fun plain plain' writable writable' => term_eq_iff_of_sort plain plain' fun sorts => by
    cases w with
    | nested m ws =>
      rw [hasPlainConstants] at plain plain'
      rw [isWritable] at writable writable'
      simp [term, Alike, annotationTerm, argumentTerms_eq_iff vs ws plain plain' writable writable', eq_comm]
    | _ => cases sorts
  | .list vs, w => fun plain plain' writable writable' => term_eq_iff_of_sort plain plain' fun sorts => by
    cases w with
    | list ws =>
      rw [hasPlainConstants] at plain plain'
      rw [isWritable] at writable writable'
      simp [term, Alike, terms_eq_iff vs ws plain plain' writable writable']
    | _ => cases sorts
  | .type t, w => fun plain plain' writable writable' => term_eq_iff_of_sort plain plain' fun sorts => by
    cases w with
    | type u =>
      rw [isWritable] at writable writable'
      simp [term, Alike, t.result_encode writable, u.result_encode writable']
    | _ => cases sorts
  | .other _ _, w => fun plain plain' _ _ => term_eq_iff_of_sort plain plain' fun sorts => by
    cases w with
    | other | stray => simp [term, Alike, sort]
    | _ => cases sorts
  | .stray _, w => fun plain plain' _ _ => term_eq_iff_of_sort plain plain' fun sorts => by
    cases w with
    | other | stray => simp [term, Alike, sort]
    | _ => cases sorts

theorem terms_eq_iff : ∀ vs ws : List Value, allHavePlainConstants vs = true → allHavePlainConstants ws = true →
    areWritable vs = true → areWritable ws = true → (terms vs = terms ws ↔ AlikeList vs ws)
  | [], ws => fun _ _ _ _ => by cases ws <;> simp [terms, AlikeList]
  | v :: vs, [] => fun _ _ _ _ => by simp [terms, AlikeList]
  | v :: vs, w :: ws => fun plain plain' writable writable' => by
    rw [allHavePlainConstants, Bool.and_eq_true] at plain plain'
    rw [areWritable, Bool.and_eq_true] at writable writable'
    simp [terms, AlikeList, term_eq_iff v w plain.1 plain'.1 writable.1 writable'.1,
      terms_eq_iff vs ws plain.2 plain'.2 writable.2 writable'.2]

theorem argumentTerms_eq_iff : ∀ vs ws : List (String × Value), argumentsHavePlainConstants vs = true →
    argumentsHavePlainConstants ws = true → areArgumentsWritable vs = true → areArgumentsWritable ws = true →
    (argumentTerms vs = argumentTerms ws ↔ AlikeArguments vs ws)
  | [], ws => fun _ _ _ _ => by cases ws <;> simp [argumentTerms, AlikeArguments]
  | (n, v) :: vs, [] => fun _ _ _ _ => by simp [argumentTerms, AlikeArguments]
  | (n, v) :: vs, (m, w) :: ws => fun plain plain' writable writable' => by
    rw [argumentsHavePlainConstants, Bool.and_eq_true] at plain plain'
    rw [areArgumentsWritable, Bool.and_eq_true] at writable writable'
    simp [argumentTerms, AlikeArguments, term_eq_iff v w plain.1 plain'.1 writable.1 writable'.1,
      argumentTerms_eq_iff vs ws plain.2 plain'.2 writable.2 writable'.2, eq_comm, and_assoc]

end

/-- **What the terms of annotation values tell.** A value has a term if and only if it is writable: no integer in it has
too many digits, and whatever in it is no value and no type can be described. Two values that have terms, and whose
constants are plain, have the same if and only if they are alike; in particular, values of different sorts never have.
-/
theorem same_term_iff_alike (v w : Value) (plain : v.hasPlainConstants = true) (plain' : w.hasPlainConstants = true) :
    v.encode.isOk = v.isWritable ∧ w.encode.isOk = w.isWritable ∧
    (v.isWritable = true → w.isWritable = true →
      ∃ a b, v.encode.result = .ok a ∧ w.encode.result = .ok b ∧ (a = b ↔ v.Alike w) ∧ (a = b → v.sort = w.sort)) := by
  refine ⟨v.isOk_encode, w.isOk_encode, fun writable writable' => ?_⟩
  have same := term_eq_iff v w plain plain' writable writable'
  exact ⟨v.term, w.term, v.result_encode writable, w.result_encode writable', same, fun terms =>
    (same.1 terms).sort_eq.symm⟩

/-- A character and a text, and types without a shape that are so for different reasons. -/
theorem same_term_iff_alike_nested :
    let v : Value := .list [.char "a", .integer (-5), .enumConstant "java.E" "A",
      .nested "N" [("x", .type (.array (.other "UNION" "A | B")))]]
    let w : Value := .list [.text "a", .integer (-5), .enumConstant "java.E" "A",
      .nested "N" [("x", .type (.array (.other "ERROR" "")))]]
    ((v.hasPlainConstants = true ∧ w.hasPlainConstants = true) ∧ v.isWritable = true ∧ w.isWritable = true) ∧
      ∃ a, v.encode.result = .ok a ∧ w.encode.result = .ok a := by
  intro v w
  have few : Numeral.isWritable (-5) = true := by decide +kernel
  have writable : v.isWritable = true := by
    simp [v, isWritable, areWritable, areArgumentsWritable, TypeExpr.isWritable, few]
  have writable' : w.isWritable = true := by
    simp [w, isWritable, areWritable, areArgumentsWritable, TypeExpr.isWritable, few]
  have alike : v.Alike w := by
    have union := TypeExpr.result_encode (.array (.other "UNION" "A | B")) rfl
    have error := TypeExpr.result_encode (.array (.other "ERROR" "")) rfl
    simp [v, w, Alike, AlikeList, AlikeArguments, union, error, TypeExpr.term, TypeExpr.norm]
  obtain ⟨-, -, both⟩ := same_term_iff_alike v w rfl rfl
  obtain ⟨a, b, first, second, same, -⟩ := both writable writable'
  exact ⟨⟨⟨rfl, rfl⟩, writable, writable'⟩, a, first, by rw [second, same.2 alike]⟩

/-- An integer with too many digits is like itself, but has no term. -/
theorem alike_oversized_without_term :
    (Value.integer Numeral.writableBound).hasPlainConstants = true ∧
    (Value.integer Numeral.writableBound).Alike (.integer Numeral.writableBound) ∧
    (Value.integer Numeral.writableBound).encode.isOk = false := by
  have oversized := Numeral.not_isWritable_writableBound
  generalize (Numeral.writableBound : Int) = n at oversized ⊢
  refine ⟨by rw [hasPlainConstants], by rw [Alike], ?_⟩
  rw [isOk_encode, isWritable, oversized]

end Value

end ProgramFacts
