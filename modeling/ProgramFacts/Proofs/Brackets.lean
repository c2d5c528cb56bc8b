import ProgramFacts.Proofs.TermLayout

/-!
# Brackets outside of quotes

How many brackets are open at each piece of a text. In the text of a term every bracket is closed again, none is closed
that was not opened, and a comma stands only where a bracket of the term itself is open (`Whole`). What stands between
the brackets of a compound or of a list has the first two properties (`Balanced`), and putting it between brackets gives
it the third.

Blanks open and close nothing. So what is true of a term on one line is true of its lines.
-/

namespace ProgramFacts

namespace Lexeme

/-- By how much a piece changes the number of open brackets. -/
def rise : Lexeme → Int
  | .char c => if c = '(' ∨ c = '[' then 1 else if c = ')' ∨ c = ']' then -1 else 0
  | _ => 0

/-- Whether a piece may stand within a fact: it is no period, and no quote that is never closed. -/
def isInner : Lexeme → Bool
  | .char c => c != '.'
  | .quoted _ => true
  | .unclosed _ => false

/-- Whether a piece may stand within an atom or a name: no bracket, no comma and no period. -/
def isFlat (l : Lexeme) : Bool := l.rise == 0 && l != .char ',' && l.isInner

theorem rise_of_isLayout {l : Lexeme} (layout : l.isLayout = true) : l.rise = 0 := by
  cases l with
  | char c =>
    simp only [rise]
    split
    · next opening => rcases opening with rfl | rfl <;> exact absurd layout (by decide)
    · split
      · next closing => rcases closing with rfl | rfl <;> exact absurd layout (by decide)
      · rfl
  | quoted body => rfl
  | unclosed body => rfl

theorem isInner_of_isLayout {l : Lexeme} (layout : l.isLayout = true) : l.isInner = true := by
  cases l with
  | char c =>
    simp only [isInner, bne_iff_ne]
    rintro rfl
    exact absurd layout (by decide)
  | quoted body => rfl
  | unclosed body => cases layout

theorem rise_of_isFlat {l : Lexeme} (flat : l.isFlat = true) : l.rise = 0 := by
  simp only [isFlat, Bool.and_eq_true, beq_iff_eq] at flat
  exact flat.1.1

theorem isFlat_of_isWordChar {c : Char} (word : Atom.isWordChar c = true) : (Lexeme.char c).isFlat = true := by
  have others : ∀ d ∈ ['(', '[', ')', ']', ',', '.'], c ≠ d := by
    rintro d there rfl
    simp only [List.mem_cons, List.not_mem_nil, or_false] at there
    rcases there with rfl | rfl | rfl | rfl | rfl | rfl <;> exact absurd word (by decide)
  simp only [List.forall_mem_cons] at others
  simp [isFlat, rise, isInner, others]

end Lexeme

/-- How many brackets the pieces leave open. -/
def depth : List Lexeme → Int
  | [] => 0
  | l :: ls => l.rise + depth ls

@[simp] theorem depth_nil : depth [] = 0 := rfl

@[simp] theorem depth_cons (l : Lexeme) (ls : List Lexeme) : depth (l :: ls) = l.rise + depth ls := rfl

@[simp] theorem depth_append (a b : List Lexeme) : depth (a ++ b) = depth a + depth b := by
  induction a with
  | nil => simp
  | cons l a ih => simp [ih]; omega

theorem depth_of_rise {ls : List Lexeme} (level : ∀ l ∈ ls, l.rise = 0) : depth ls = 0 := by
  induction ls with
  | nil => rfl
  | cons l ls ih =>
    rw [depth_cons, level l (by simp), ih fun m there => level m (by simp [there])]
    rfl

/-! ## Pieces in which every bracket is closed -/

/-- Every bracket is closed, and none that was not opened. No period and no unclosed quote is among the pieces. -/
structure Balanced (ls : List Lexeme) : Prop where
  level : depth ls = 0
  above : ∀ p q, ls = p ++ q → 0 ≤ depth p
  inner : ∀ l ∈ ls, l.isInner = true

/-- Balanced pieces in which every comma stands in a bracket. -/
structure Whole (ls : List Lexeme) : Prop extends Balanced ls where
  nested : ∀ p q, ls = p ++ .char ',' :: q → 0 < depth p

namespace Balanced

theorem append {a b : List Lexeme} (first : Balanced a) (second : Balanced b) : Balanced (a ++ b) := by
  refine ⟨by simp [first.level, second.level], ?_, ?_⟩
  · intro p q cut
    rcases List.append_eq_append_iff.1 cut with ⟨m, rfl, rest⟩ | ⟨m, rest, -⟩
    · rw [depth_append, first.level]
      have := second.above m q rest
      omega
    · exact first.above p m rest
  · intro l there
    rcases List.mem_append.1 there with h | h
    · exact first.inner l h
    · exact second.inner l h

/-- Pieces none of which is a bracket. -/
theorem of_rise {ls : List Lexeme} (level : ∀ l ∈ ls, l.rise = 0) (inner : ∀ l ∈ ls, l.isInner = true) :
    Balanced ls := by
  refine ⟨depth_of_rise level, ?_, inner⟩
  rintro p q rfl
  exact Int.le_of_eq (depth_of_rise fun l there => level l (by simp [there])).symm

/-- Between two brackets. -/
theorem enclosed {ls : List Lexeme} (h : Balanced ls) {o c : Char} (opens : (Lexeme.char o).rise = 1)
    (closes : (Lexeme.char c).rise = -1) (inner : (Lexeme.char o).isInner = true ∧ (Lexeme.char c).isInner = true) :
    Whole (.char o :: ls ++ [.char c]) := by
  -- A beginning of the whole is empty, or the opening bracket and a beginning of what it encloses, or all of it.
  have front : ∀ p q, .char o :: ls ++ [.char c] = p ++ q → p = [] ∨ 0 < depth p ∨ q = [] := by
    intro p q cut
    cases p with
    | nil => exact .inl rfl
    | cons l p =>
      simp only [List.cons_append, List.cons.injEq] at cut
      obtain ⟨rfl, cut⟩ := cut
      rw [depth_cons, opens]
      rcases List.append_eq_append_iff.1 cut with ⟨m, rfl, rest⟩ | ⟨m, rest, -⟩
      · cases m with
        | nil =>
          have := h.level
          simp only [List.append_nil]
          omega
        | cons l m =>
          simp only [List.cons_append, List.cons.injEq] at rest
          exact .inr (.inr (List.append_eq_nil_iff.1 rest.2.symm).2)
      · have := h.above p m rest
        omega
  have level : depth (.char o :: ls ++ [.char c]) = 0 := by
    simp [opens, closes, h.level]
  refine ⟨⟨level, ?_, ?_⟩, ?_⟩
  · intro p q cut
    rcases front p q cut with rfl | positive | rfl
    · simp
    · omega
    · rw [List.append_nil] at cut
      exact Int.le_of_eq (by rw [← cut, level])
  · intro l there
    simp only [List.cons_append, List.mem_cons, List.mem_append, List.not_mem_nil, or_false] at there
    rcases there with rfl | there | rfl
    · exact inner.1
    · exact h.inner l there
    · exact inner.2
  · intro p q cut
    rcases front p _ cut with rfl | positive | impossible
    · -- The first piece is a bracket, and no comma.
      simp only [List.cons_append, List.nil_append, List.cons.injEq] at cut
      rw [cut.1] at opens
      exact absurd opens (by decide)
    · exact positive
    · simp at impossible

end Balanced

namespace Whole

theorem of_flat {ls : List Lexeme} (flat : ∀ l ∈ ls, l.isFlat = true) : Whole ls := by
  simp only [Lexeme.isFlat, Bool.and_eq_true, beq_iff_eq, bne_iff_ne] at flat
  refine ⟨.of_rise (fun l there => (flat l there).1.1) fun l there => (flat l there).2, ?_⟩
  rintro p q rfl
  exact absurd rfl (flat (.char ',') (by simp)).1.2

/-- Behind pieces of a name. -/
theorem flat_append {a b : List Lexeme} (flat : ∀ l ∈ a, l.isFlat = true) (h : Whole b) : Whole (a ++ b) := by
  have first := of_flat flat
  refine ⟨first.toBalanced.append h.toBalanced, ?_⟩
  intro p q cut
  rcases List.append_eq_append_iff.1 cut with ⟨m, rfl, rest⟩ | ⟨m, rest, next⟩
  · rw [depth_append, first.level]
    have := h.nested m q rest
    omega
  · cases m with
    | nil =>
      have := h.nested [] q next.symm
      simp at this
    | cons l m =>
      simp only [List.cons_append, List.cons.injEq] at next
      rw [← next.1] at rest
      exact first.nested p m rest

end Whole

/-! ## Layout opens and closes nothing -/

theorem depth_filter (ls : List Lexeme) : depth (ls.filter fun l => !l.isLayout) = depth ls := by
  induction ls with
  | nil => rfl
  | cons l ls ih =>
    by_cases layout : l.isLayout = true
    · simp [layout, ih, Lexeme.rise_of_isLayout layout]
    · simp [layout, ih]

/-- Pieces are balanced with their layout if and only if they are balanced without it. -/
theorem balanced_filter_iff {ls : List Lexeme} : Balanced (ls.filter fun l => !l.isLayout) ↔ Balanced ls := by
  constructor
  · intro h
    refine ⟨by rw [← depth_filter, h.level], ?_, ?_⟩
    · rintro p q rfl
      rw [← depth_filter]
      exact h.above _ _ (List.filter_append p q)
    · intro l there
      by_cases layout : l.isLayout = true
      · exact Lexeme.isInner_of_isLayout layout
      · exact h.inner l (List.mem_filter.2 ⟨there, by simpa using layout⟩)
  · intro h
    refine ⟨by rw [depth_filter, h.level], ?_, ?_⟩
    · intro p q cut
      obtain ⟨p, q, rfl, rfl, -⟩ := List.filter_eq_append_iff.1 cut
      rw [depth_filter]
      exact h.above p q rfl
    · intro l there
      exact h.inner l (List.mem_filter.1 there).1

theorem whole_filter_iff {ls : List Lexeme} : Whole (ls.filter fun l => !l.isLayout) ↔ Whole ls := by
  constructor
  · intro h
    refine ⟨balanced_filter_iff.1 h.toBalanced, ?_⟩
    rintro p q rfl
    rw [← depth_filter]
    apply h.nested _ (q.filter fun l => !l.isLayout)
    rw [List.filter_append, List.filter_cons_of_pos (by decide)]
  · intro h
    refine ⟨balanced_filter_iff.2 h.toBalanced, ?_⟩
    intro p q cut
    obtain ⟨p, rest, rfl, rfl, next⟩ := List.filter_eq_append_iff.1 cut
    obtain ⟨w, q, rfl, layout, -, -⟩ := List.filter_eq_cons_iff.1 next
    have blanks : depth w = 0 := depth_of_rise fun l there =>
      Lexeme.rise_of_isLayout (by simpa using layout l there)
    have positive := h.nested (p ++ w) q (by simp)
    rw [depth_append, blanks] at positive
    rw [depth_filter]
    omega

/-! ## Terms -/

namespace Term

theorem isFlat_identifier {cs : List Char} (word : Atom.isIdentifier cs = true) :
    ∀ l ∈ cs.map Lexeme.char, l.isFlat = true := by
  intro l there
  obtain ⟨c, member, rfl⟩ := List.mem_map.1 there
  exact Lexeme.isFlat_of_isWordChar (Atom.isWordChar_of_mem word member)

theorem whole_atom (v : String) : Whole (lexemes (chars (.atom v))) := by
  apply Whole.of_flat
  rw [lexemes_atom]
  split
  · next plain => exact isFlat_identifier (Atom.isIdentifier_of_isPlain plain)
  · intro l there
    rw [List.mem_singleton.1 there]
    rfl

theorem balanced_separator : Balanced [.char ',', .char ' '] :=
  .of_rise (by decide) (by decide)

mutual

/-- The one-line text of a term is whole. -/
theorem whole_chars : ∀ t : Term, t.isWellNamed = true → Whole (lexemes t.chars)
  | .atom v, _ => whole_atom v
  | .compound n ts, named => by
    have pieces := lexemes_compound (isQuoteless_of_isWellNamed named)
    simp only [isWellNamed, namesAll, Bool.and_eq_true] at named
    have parts := balanced_charsList ts named.2
    rw [pieces, List.append_assoc]
    exact .flat_append (isFlat_identifier named.1) (parts.enclosed (by decide) (by decide) (by decide))
  | .list ts, named => by
    have parts := balanced_charsList ts named
    rw [lexemes_list (isQuoteless_of_isWellNamed named)]
    exact parts.enclosed (by decide) (by decide) (by decide)

theorem balanced_charsList :
    ∀ ts : List Term, namesAllIn (fun n => Atom.isIdentifier n.toList) ts = true → Balanced (lexemes (charsList ts))
  | [], _ => .of_rise (by simp [charsList]) (by simp [charsList])
  | [t], named => by
    simp only [namesAllIn, Bool.and_eq_true] at named
    rw [charsList_singleton]
    exact (whole_chars t named.1).toBalanced
  | t :: u :: us, named => by
    rw [namesAllIn, Bool.and_eq_true] at named
    rw [lexemes_charsList_cons_cons (isQuoteless_of_isWellNamed named.1)]
    exact (whole_chars t named.1).toBalanced.append
      (balanced_separator.append (balanced_charsList (u :: us) named.2))

end

/-- The lines of a term are whole, whatever blanks indent them. -/
theorem whole_layout {unit : List Char} (blank : ∀ c ∈ unit, Text.isBlank c = true) {t : Term}
    (named : t.isWellNamed = true) (level : Nat) : Whole (lexemes (t.layout unit level)) := by
  have same := (alike_layout blank t level (isQuoteless_of_isWellNamed named)).same
  have oneLine := whole_filter_iff.2 (whole_chars t named)
  rw [visible, visible] at same
  rw [← same] at oneLine
  exact whole_filter_iff.1 oneLine

end Term

end ProgramFacts
