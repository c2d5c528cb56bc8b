import Mathlib.Data.List.Chain
import ProgramFacts.Proofs.FactOutlines

/-!
# The lines of a term

A term over several lines as a list of lines. Each line shows a term within the term: all of it, or only what opens or
closes its parts. A line is indented by the place of what it shows, and ends in a comma if what it shows ends there and
has a sibling after it.

Two laws hold between neighbouring lines and are proved by one induction over terms each: a comma stands exactly where
a sibling follows (`List.IsChain`), and the place of a line tells how many brackets the lines before it have left open
(`Follows`).
-/

namespace ProgramFacts

namespace Term

/-! ## Terms by their parts -/

/-- What holds of a term if it holds of its parts holds of all terms. -/
theorem induction_on_parts {P : Term → Prop} (step : ∀ t, (∀ u ∈ t.parts, P u) → P t) (t : Term) : P t := by
  induction size : sizeOf t using Nat.strongRecOn generalizing t with
  | _ n ih =>
    subst size
    apply step
    intro u there
    have smaller := List.sizeOf_lt_of_mem there
    apply ih (sizeOf u) _ u rfl
    cases t with
    | atom v => cases there
    | compound n ts => simp [parts] at smaller ⊢; omega
    | list ts => simp [parts] at smaller ⊢; omega

/-- What stands before the parts of a term. -/
def opening : Term → List Char
  | .atom _ => []
  | .compound n _ => n.toList ++ ['(']
  | .list _ => ['[']

/-- What stands behind the parts of a term. -/
def closing : Term → List Char
  | .atom _ => []
  | .compound _ _ => [')']
  | .list _ => [']']

theorem isAtom_of_not_isSimple {t : Term} (broken : t.isSimple = false) : t.isAtom = false := by
  cases t with
  | atom v => cases broken
  | compound n ts => rfl
  | list ts => rfl

theorem chars_of_not_isAtom {t : Term} (branch : t.isAtom = false) :
    t.chars = t.opening ++ charsList t.parts ++ t.closing := by
  cases t with
  | atom v => cases branch
  | compound n ts => simp [chars, opening, closing, parts]
  | list ts => simp [chars, opening, closing, parts]

theorem layout_of_isSimple {t : Term} (simple : t.isSimple = true) (unit : List Char) (level : Nat) :
    t.layout unit level = t.chars := by
  cases t with
  | atom v => rfl
  | compound n ts => simp [layout, chars, show ts.all isSmall = true from simple]
  | list ts => simp [layout, chars, show ts.all isAtom = true from simple]

theorem layout_of_not_isSimple {t : Term} (broken : t.isSimple = false) (unit : List Char) (level : Nat) :
    t.layout unit level =
      t.opening ++ '\n' :: layoutLines unit (level + 1) t.parts ++ indentation unit level ++ t.closing := by
  cases t with
  | atom v => cases broken
  | compound n ts => simp [layout, opening, closing, parts, show ts.all isSmall = false from broken]
  | list ts => simp [layout, opening, closing, parts, show ts.all isAtom = false from broken]

/-! ## Lines -/

/-- What a line shows of a term. -/
inductive Extent
  | whole
  | opening
  | closing
deriving DecidableEq

structure Line where
  /-- Where in the whole the term is that the line shows: the index of a part, the index of a part of it, and so on. -/
  place : List Nat
  term : Term
  extent : Extent
  comma : Bool

namespace Line

/-- The line without indentation and comma. -/
def content (l : Line) : List Char :=
  match l.extent with
  | .whole => l.term.chars
  | .opening => l.term.opening
  | .closing => l.term.closing

def text (unit : List Char) (l : Line) : List Char :=
  indentation unit l.place.length ++ l.content ++ if l.comma then [','] else []

/-- What ends in the first line has its next sibling begin in the second. -/
def Precedes (l m : Line) : Prop :=
  (∃ place i, l.place = place ++ [i] ∧ m.place = place ++ [i + 1]) ∧ l.extent ≠ .opening ∧ m.extent ≠ .closing

end Line

/-- The lines of a term around those of its parts. -/
def enclose (place : List Nat) (comma : Bool) (t : Term) (inner : List Line) : List Line :=
  if t.isSimple then [⟨place, t, .whole, comma⟩]
  else ⟨place, t, .opening, false⟩ :: inner ++ [⟨place, t, .closing, comma⟩]

mutual

/-- The lines of the term at a place, with or without a comma behind the last. -/
def lines (place : List Nat) (comma : Bool) : Term → List Line
  | .atom v => enclose place comma (.atom v) []
  | .compound n ts => enclose place comma (.compound n ts) (linesIn place 0 ts)
  | .list ts => enclose place comma (.list ts) (linesIn place 0 ts)

/-- The lines of several parts of the term at a place, the first of which has the given index. -/
def linesIn (place : List Nat) (i : Nat) : List Term → List Line
  | [] => []
  | t :: ts => t.lines (place ++ [i]) (!ts.isEmpty) ++ linesIn place (i + 1) ts

end

theorem lines_of_isSimple {t : Term} (simple : t.isSimple = true) (place : List Nat) (comma : Bool) :
    t.lines place comma = [⟨place, t, .whole, comma⟩] := by
  cases t <;> simp [lines, enclose, simple]

theorem lines_of_not_isSimple {t : Term} (broken : t.isSimple = false) (place : List Nat) (comma : Bool) :
    t.lines place comma =
      ⟨place, t, .opening, false⟩ :: linesIn place 0 t.parts ++ [⟨place, t, .closing, comma⟩] := by
  cases t with
  | atom v => cases broken
  | compound n ts => simp [lines, enclose, broken, parts]
  | list ts => simp [lines, enclose, broken, parts]

theorem at?_append (p q : List Nat) (t : Term) : t.at? (p ++ q) = (t.at? p).bind fun u => u.at? q := by
  induction p generalizing t with
  | nil => rfl
  | cons i p ih => simp only [List.cons_append, at?, ih, Option.bind_assoc]

/-- The lines of a term, each ended by a line feed, are its layout. -/
theorem layout_eq_lines (unit : List Char) (t : Term) : ∀ (place : List Nat) (comma : Bool),
    indentation unit place.length ++ t.layout unit place.length ++ (if comma then [','] else []) ++ ['\n'] =
      (t.lines place comma).flatMap fun l => l.text unit ++ ['\n'] := by
  induction t using induction_on_parts with
  | step t ih =>
    intro place comma
    have parts : ∀ (ts : List Term) (i : Nat), (∀ u ∈ ts, u ∈ t.parts) →
        layoutLines unit (place.length + 1) ts = (linesIn place i ts).flatMap fun l => l.text unit ++ ['\n'] := by
      intro ts
      induction ts with
      | nil => intros; rfl
      | cons u ts others =>
        intro i within
        have first := ih u (within u (by simp)) (place ++ [i]) (!ts.isEmpty)
        rw [linesIn, List.flatMap_append, ← first, ← others (i + 1) fun w there => within w (by simp [there])]
        cases ts <;> simp [layoutLines]
    cases simple : t.isSimple with
    | true => simp [lines_of_isSimple simple, layout_of_isSimple simple, Line.text, Line.content]
    | false =>
      rw [lines_of_not_isSimple simple, layout_of_not_isSimple simple, parts t.parts 0 fun _ there => there]
      simp [Line.text, Line.content]

/-! ## Commas and siblings -/

/-- The first line of a term and the last one show the term itself. -/
structure Borders (place : List Nat) (comma : Bool) (ls : List Line) : Prop where
  first : ∃ l, ls.head? = some l ∧ l.place = place ∧ l.extent ≠ .closing
  last : ∃ l, ls.getLast? = some l ∧ l.place = place ∧ l.extent ≠ .opening ∧ l.comma = comma

theorem borders_lines (t : Term) (place : List Nat) (comma : Bool) : Borders place comma (t.lines place comma) := by
  cases simple : t.isSimple with
  | true =>
    rw [lines_of_isSimple simple]
    exact ⟨⟨_, rfl, rfl, by simp⟩, ⟨_, rfl, rfl, by simp, rfl⟩⟩
  | false =>
    rw [lines_of_not_isSimple simple]
    exact ⟨⟨_, rfl, rfl, by simp⟩, ⟨_, List.getLast?_concat, rfl, by simp, rfl⟩⟩

theorem linesIn_ne_nil {ts : List Term} (some? : ts ≠ []) (place : List Nat) (i : Nat) : linesIn place i ts ≠ [] := by
  cases ts with
  | nil => exact absurd rfl some?
  | cons t ts =>
    obtain ⟨l, head, -⟩ := (borders_lines t (place ++ [i]) (!ts.isEmpty)).first
    intro none
    rw [linesIn, List.append_eq_nil_iff] at none
    simp [none.1] at head

/-- A line has a comma exactly if a sibling of what ends in it begins in the next. -/
def CommaLaw (l m : Line) : Prop := l.comma = true ↔ l.Precedes m

/-- The lines of parts: the first part begins with its index, siblings are divided by commas, and no comma is behind the
last. -/
structure Divided (place : List Nat) (i : Nat) (ls : List Line) : Prop where
  chain : ls.IsChain CommaLaw
  first : ∀ l ∈ ls.head?, l.place = place ++ [i] ∧ l.extent ≠ .closing
  last : ∀ l ∈ ls.getLast?, l.comma = false

theorem divided_linesIn (place : List Nat) : ∀ (ts : List Term) (i : Nat),
    (∀ u ∈ ts, ∀ place comma, (u.lines place comma).IsChain CommaLaw) → Divided place i (linesIn place i ts)
  | [], i, _ => by
    rw [linesIn]
    exact ⟨.nil, by simp, by simp⟩
  | u :: us, i, each => by
    have others := divided_linesIn place us (i + 1) fun w there => each w (by simp [there])
    obtain ⟨⟨l, head, lPlace, lExtent⟩, ⟨m, tail, mPlace, mExtent, mComma⟩⟩ :=
      borders_lines u (place ++ [i]) (!us.isEmpty)
    rw [linesIn]
    refine ⟨?_, ?_, ?_⟩
    · refine List.isChain_append.2 ⟨each u (by simp) _ _, others.chain, ?_⟩
      intro x xLast y yFirst
      obtain rfl : m = x := by simpa [tail] using xLast
      obtain ⟨yPlace, yExtent⟩ := others.first y yFirst
      have more : us.isEmpty = false := by
        cases us with
        | nil => simp [linesIn] at yFirst
        | cons w us => rfl
      rw [more] at mComma
      exact iff_of_true mComma ⟨⟨place, i, mPlace, yPlace⟩, mExtent, yExtent⟩
    · intro x there
      obtain rfl : l = x := by simpa [List.head?_append, head] using there
      exact ⟨lPlace, lExtent⟩
    · intro x there
      cases us with
      | nil =>
        rw [linesIn, List.append_nil, tail] at there
        obtain rfl : m = x := by simpa using there
        exact mComma
      | cons w us =>
        apply others.last
        rwa [List.getLast?_append_of_ne_nil _ (linesIn_ne_nil (List.cons_ne_nil w us) place (i + 1))] at there

/-- Commas divide siblings. -/
theorem chain_lines (t : Term) : ∀ (place : List Nat) (comma : Bool), (t.lines place comma).IsChain CommaLaw := by
  induction t using induction_on_parts with
  | step t ih =>
    intro place comma
    cases simple : t.isSimple with
    | true =>
      rw [lines_of_isSimple simple]
      exact .singleton _
    | false =>
      have parts := divided_linesIn place t.parts 0 ih
      rw [lines_of_not_isSimple simple, List.cons_append, List.isChain_cons]
      refine ⟨?_, List.isChain_append.2 ⟨parts.chain, .singleton _, ?_⟩⟩
      · -- Behind an opening bracket there is no comma, and a part begins that is no sibling.
        intro y _
        exact iff_of_false (by simp) fun precedes => precedes.2.1 rfl
      · intro x there y same
        obtain rfl : (⟨place, t, .closing, comma⟩ : Line) = y := by simpa using same
        exact iff_of_false (by simp [parts.last x there]) fun precedes => precedes.2.2 rfl

/-- A line of a term that has no comma behind it has one exactly if a sibling begins in the next line. -/
theorem comma_iff {t : Term} {place : List Nat} {i : Nat} {l : Line} (here : (t.lines place false)[i]? = some l) :
    l.comma = true ↔ ∃ m, (t.lines place false)[i + 1]? = some m ∧ l.Precedes m := by
  cases next : (t.lines place false)[i + 1]? with
  | some m =>
    obtain ⟨_, rfl⟩ := List.getElem?_eq_some_iff.1 here
    obtain ⟨bound, rfl⟩ := List.getElem?_eq_some_iff.1 next
    have law := List.isChain_iff_getElem.1 (t.chain_lines place false) i bound
    simpa using show _ ↔ _ from law
  | none =>
    -- Only the last line has none after it, and there is no comma behind the term.
    obtain ⟨m, last, -, -, comma⟩ := (borders_lines t place false).last
    obtain ⟨bound, rfl⟩ := List.getElem?_eq_some_iff.1 here
    have atEnd : i = (t.lines place false).length - 1 := by
      have := List.getElem?_eq_none_iff.1 next
      omega
    rw [List.getLast?_eq_getElem?, ← atEnd, List.getElem?_eq_getElem bound, Option.some_inj] at last
    simp [last, comma]

/-! ## Indentation and open brackets -/

/-- By how much a line changes the number of open brackets. -/
def Extent.rise : Extent → Int
  | .whole => 0
  | .opening => 1
  | .closing => -1

/-- How many brackets are open before a line. -/
def Line.before (l : Line) : Int := l.place.length + if l.extent = .closing then 1 else 0

/-- The lines come one after the other, with `d` brackets open before them and `e` behind them. -/
def Follows : Int → List Line → Int → Prop
  | d, [], e => d = e
  | d, l :: ls, e => l.before = d ∧ Follows (d + l.extent.rise) ls e

theorem Follows.append {a b : List Line} {d m e : Int} (first : Follows d a m) (second : Follows m b e) :
    Follows d (a ++ b) e := by
  induction a generalizing d with
  | nil =>
    obtain rfl : d = m := first
    exact second
  | cons l a ih => exact ⟨first.1, ih first.2⟩

theorem follows_lines (t : Term) : ∀ (place : List Nat) (comma : Bool),
    Follows place.length (t.lines place comma) place.length := by
  induction t using induction_on_parts with
  | step t ih =>
    intro place comma
    have parts : ∀ (ts : List Term) (i : Nat), (∀ u ∈ ts, u ∈ t.parts) →
        Follows (place.length + 1) (linesIn place i ts) (place.length + 1) := by
      intro ts
      induction ts with
      | nil => intros; rfl
      | cons u ts others =>
        intro i within
        have first := ih u (within u (by simp)) (place ++ [i]) (!ts.isEmpty)
        rw [linesIn]
        simp only [List.length_append, List.length_singleton, Int.natCast_add, Int.natCast_one] at first
        exact first.append (others (i + 1) fun w there => within w (by simp [there]))
    cases simple : t.isSimple with
    | true =>
      rw [lines_of_isSimple simple]
      exact ⟨by simp [Line.before], by simp [Follows, Extent.rise]⟩
    | false =>
      rw [lines_of_not_isSimple simple]
      refine ⟨by simp [Line.before], ?_⟩
      refine (parts t.parts 0 fun _ there => there).append ⟨by simp [Line.before], ?_⟩
      simp only [Follows, Extent.rise]
      omega

/-- What is open before a line is what the lines before it have left open. -/
theorem Follows.before {pieces : Line → List Lexeme} {ls : List Line} {d e : Int} (h : Follows d ls e)
    (rises : ∀ l ∈ ls, depth (pieces l) = l.extent.rise) {i : Nat} {l : Line} (found : ls[i]? = some l) :
    d + depth ((ls.take i).flatMap pieces) = l.before := by
  induction ls generalizing d i with
  | nil => simp at found
  | cons m ls ih =>
    cases i with
    | zero =>
      obtain rfl : m = l := by simpa using found
      simp [h.1]
    | succ i =>
      have later := ih h.2 (fun k there => rises k (by simp [there])) (by simpa using found)
      rw [← rises m (by simp)] at later
      simp only [List.take_succ_cons, List.flatMap_cons, depth_append]
      omega

end Term

end ProgramFacts
