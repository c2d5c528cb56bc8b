import ProgramFacts.Proofs.Lexemes
import ProgramFacts.Term.Layout

/-!
# What layout changes

A term over several lines has the same pieces as the term on one line, in the same order, but for blanks that
stand outside of quoted atoms. `Alike` relates texts of which this is true; it is kept when both are put between
the same characters, and when blanks are put before or behind one of them.
-/

namespace ProgramFacts

/-- The pieces of a text without its layout. -/
def visible (cs : List Char) : List Lexeme := (lexemes cs).filter fun l => !l.isLayout

/-- The text without the blanks outside of its quoted atoms. -/
def withoutLayout (s : String) : String := String.ofList ((visible s.toList).flatMap Lexeme.text)

/-- What stands in the quoted pieces, in order. -/
def Lexeme.bodies (ls : List Lexeme) : List (List Char) := ls.filterMap Lexeme.body?

/-- What stands in the quoted atoms of a text, in order. -/
def quotedBodies (s : String) : List (List Char) := Lexeme.bodies (lexemes s.toList)

namespace Lexeme

theorem bodies_append (a b : List Lexeme) : bodies (a ++ b) = bodies a ++ bodies b := List.filterMap_append

theorem bodies_char (c : Char) (ls : List Lexeme) : bodies (.char c :: ls) = bodies ls := rfl

theorem bodies_chars (cs : List Char) : bodies (cs.map .char) = [] := by
  induction cs with
  | nil => rfl
  | cons c cs ih => rw [List.map_cons, bodies_char, ih]

end Lexeme

/-- Layout has no part in what is quoted. -/
theorem bodies_visible (cs : List Char) : Lexeme.bodies (visible cs) = Lexeme.bodies (lexemes cs) := by
  rw [visible]
  induction lexemes cs with
  | nil => rfl
  | cons l ls ih =>
    by_cases layout : l.isLayout = true
    · have none? : l.body? = none := by
        cases l with
        | char c => rfl
        | quoted body => cases layout
        | unclosed body => cases layout
      have dropped : Lexeme.bodies (l :: ls) = Lexeme.bodies ls := List.filterMap_cons_none none?
      rw [List.filter_cons_of_neg (by simpa using layout), ih, dropped]
    · rw [List.filter_cons_of_pos (by simpa using layout), ← List.singleton_append,
        ← List.singleton_append (l := ls), Lexeme.bodies_append, Lexeme.bodies_append, ih]

theorem quote_ne_of_isBlank {c : Char} (blank : Text.isBlank c = true) : c ≠ Atom.quote := by
  rintro rfl
  exact absurd blank (by decide)

theorem visible_blanks {w : List Char} (blank : ∀ c ∈ w, Text.isBlank c = true) (a : List Char) :
    visible (w ++ a) = visible a := by
  induction w with
  | nil => rfl
  | cons c w ih =>
    have here := blank c (by simp)
    have first : visible (c :: (w ++ a)) = visible (w ++ a) := by
      simp [visible, lexemes_cons (quote_ne_of_isBlank here), Lexeme.isLayout, here]
    rw [List.cons_append, first, ih fun d hd => blank d (by simp [hd])]

theorem quote_not_mem_blanks {w : List Char} (blank : ∀ c ∈ w, Text.isBlank c = true) : Atom.quote ∉ w :=
  fun member => quote_ne_of_isBlank (blank _ member) rfl

theorem Closed.visible_append {a b : List Char} (ha : Closed a) (next : ∀ c ∈ b.head?, c ≠ Atom.quote) :
    visible (a ++ b) = visible a ++ visible b := by
  cases b with
  | nil => simp [visible]
  | cons c b => rw [visible, ha c b (next c rfl), List.filter_append]; rfl

/-- Two texts that can be cut at what follows them, with the same pieces but for layout. -/
structure Alike (a b : List Char) : Prop where
  left : Closed a
  right : Closed b
  same : visible a = visible b

namespace Alike

theorem refl {a : List Char} (h : Closed a) : Alike a a := ⟨h, h, rfl⟩

/-- Both on either side of one character. -/
theorem append_cons {a a' b b' : List Char} (first : Alike a a') (second : Alike b b') {c : Char}
    (other : c ≠ Atom.quote) : Alike (a ++ c :: b) (a' ++ c :: b') := by
  refine ⟨first.left.append_cons second.left other, first.right.append_cons second.right other, ?_⟩
  have head : visible (c :: b) = visible (c :: b') := by
    have tail := second.same
    simp only [visible, lexemes_cons other, List.filter_cons] at tail ⊢
    rw [tail]
  rw [first.left.visible_append (by simpa using other), first.right.visible_append (by simpa using other),
    first.same, head]

theorem cons {b b' : List Char} (second : Alike b b') {c : Char} (other : c ≠ Atom.quote) :
    Alike (c :: b) (c :: b') :=
  (refl (Closed.quoteless (a := []) (by simp))).append_cons second other

theorem concat {a a' : List Char} (first : Alike a a') {c : Char} (other : c ≠ Atom.quote) :
    Alike (a ++ [c]) (a' ++ [c]) :=
  first.append_cons (refl (Closed.quoteless (by simp))) other

/-- Blanks before the first. -/
theorem indented {a a' w : List Char} (h : Alike a a') (blank : ∀ c ∈ w, Text.isBlank c = true) :
    Alike (w ++ a) a' := by
  refine ⟨h.left.prepend (quote_not_mem_blanks blank), h.right, ?_⟩
  rw [visible_blanks blank, h.same]

/-- Blanks before the second. -/
theorem indented_right {a a' w : List Char} (h : Alike a a') (blank : ∀ c ∈ w, Text.isBlank c = true) :
    Alike a (w ++ a') := by
  have swapped : Alike a' a := ⟨h.right, h.left, h.same.symm⟩
  have put := swapped.indented blank
  exact ⟨put.right, put.left, put.same.symm⟩

/-- Blanks behind the first. -/
theorem trailing {a a' w : List Char} (h : Alike a a') (blank : ∀ c ∈ w, Text.isBlank c = true) :
    Alike (a ++ w) a' := by
  have quoteless := quote_not_mem_blanks blank
  refine ⟨?_, h.right, ?_⟩
  · cases w with
    | nil => simpa using h.left
    | cons c w =>
      rw [List.mem_cons, not_or] at quoteless
      exact h.left.append_cons (Closed.quoteless quoteless.2) (Ne.symm quoteless.1)
  · have next : ∀ c ∈ w.head?, c ≠ Atom.quote := fun c hc =>
      quote_ne_of_isBlank (blank c (List.mem_of_mem_head? hc))
    have nothing : visible w = [] := by simpa [visible] using visible_blanks blank []
    rw [h.left.visible_append next, nothing, List.append_nil, h.same]

end Alike

namespace Term

theorem isBlank_indentation {unit : List Char} (blank : ∀ c ∈ unit, Text.isBlank c = true) (level : Nat) :
    ∀ c ∈ indentation unit level, Text.isBlank c = true := by
  induction level with
  | zero => simp [indentation]
  | succ level ih =>
    intro c member
    rcases List.mem_append.1 member with here | deeper
    · exact blank c here
    · exact ih c deeper

theorem isBlank_lineFeed : ∀ c ∈ ['\n'], Text.isBlank c = true := List.all_eq_true.1 rfl

theorem isBlank_space : ∀ c ∈ [' '], Text.isBlank c = true := List.all_eq_true.1 rfl

/-- The parts of a compound or of a list, on one line or on several. -/
theorem alike_parts {unit : List Char} (blank : ∀ c ∈ unit, Text.isBlank c = true) {ts : List Term} (level : Nat)
    (closed : Closed (charsList ts)) (lines : Alike (layoutLines unit (level + 1) ts) (charsList ts))
    (simple : Prop) [Decidable simple] :
    Alike (if simple then charsList ts else '\n' :: layoutLines unit (level + 1) ts ++ indentation unit level)
      (charsList ts) := by
  split
  · exact Alike.refl closed
  · exact (lines.indented isBlank_lineFeed).trailing (isBlank_indentation blank level)

mutual

/-- The lines of a term have the pieces of its one-line form. -/
theorem alike_layout {unit : List Char} (blank : ∀ c ∈ unit, Text.isBlank c = true) :
    ∀ (t : Term) (level : Nat), t.isQuoteless = true → Alike (t.layout unit level) t.chars
  | .atom v, _, _ => Alike.refl (Closed.atom v.toList)
  | .compound n ts, level, names => by
    simp only [isQuoteless, namesAll, Bool.and_eq_true] at names
    have name : Atom.quote ∉ n.toList := by simpa using names.1
    have parts := alike_parts blank level (closed_charsList ts names.2)
      (alike_layoutLines blank ts (level + 1) names.2) (ts.all isSmall = true)
    have opened := (Alike.refl (Closed.quoteless name)).append_cons parts (c := '(') (by decide)
    exact opened.concat (c := ')') (by decide)
  | .list ts, level, names => by
    have parts := alike_parts blank level (closed_charsList ts names)
      (alike_layoutLines blank ts (level + 1) names) (ts.all isAtom = true)
    have opened := parts.cons (c := '[') (by decide)
    exact opened.concat (c := ']') (by decide)

theorem alike_layoutLines {unit : List Char} (blank : ∀ c ∈ unit, Text.isBlank c = true) :
    ∀ (ts : List Term) (level : Nat), namesAllIn (fun n => !n.toList.contains Atom.quote) ts = true →
      Alike (layoutLines unit level ts) (charsList ts)
  | [], _, _ => Alike.refl (Closed.quoteless (a := []) (by simp))
  | [t], level, names => by
    simp only [namesAllIn, Bool.and_eq_true] at names
    have first := (alike_layout blank t level names.1).indented (isBlank_indentation blank level)
    rw [charsList_singleton]
    simpa [layoutLines] using first.trailing isBlank_lineFeed
  | t :: u :: us, level, names => by
    rw [namesAllIn, Bool.and_eq_true] at names
    have first := (alike_layout blank t level names.1).indented (isBlank_indentation blank level)
    have others := alike_layoutLines blank (u :: us) level names.2
    have spaced := (others.indented isBlank_lineFeed).indented_right isBlank_space
    have both := first.append_cons spaced (c := ',') (by decide)
    rw [charsList_cons_cons]
    simpa [layoutLines] using both

end

/-! ## What stands in quotes -/

mutual

/-- The values of the atoms that are written in quotes, in order. -/
def quotedAtoms : Term → List (List Char)
  | .atom v => if Atom.isPlain v.toList then [] else [v.toList]
  | .compound _ ts => quotedAtomsIn ts
  | .list ts => quotedAtomsIn ts

def quotedAtomsIn : List Term → List (List Char)
  | [] => []
  | t :: ts => t.quotedAtoms ++ quotedAtomsIn ts

end

mutual

theorem bodies_chars :
    ∀ t : Term, t.isQuoteless = true → Lexeme.bodies (lexemes t.chars) = t.quotedAtoms.map Atom.double
  | .atom v, _ => by
    rw [lexemes_atom, quotedAtoms]
    split
    · exact Lexeme.bodies_chars v.toList
    · rfl
  | .compound n ts, names => by
    have pieces := lexemes_compound names
    simp only [isQuoteless, namesAll, Bool.and_eq_true] at names
    have parts := bodies_charsList ts names.2
    rw [pieces, Lexeme.bodies_append, Lexeme.bodies_append, Lexeme.bodies_chars, Lexeme.bodies_char, parts]
    exact List.append_nil _
  | .list ts, names => by
    have parts := bodies_charsList ts names
    rw [lexemes_list names, Lexeme.bodies_append, Lexeme.bodies_char, parts]
    exact List.append_nil _

theorem bodies_charsList :
    ∀ ts : List Term, namesAllIn (fun n => !n.toList.contains Atom.quote) ts = true →
      Lexeme.bodies (lexemes (charsList ts)) = (quotedAtomsIn ts).map Atom.double
  | [], _ => rfl
  | [t], names => by
    simp only [namesAllIn, Bool.and_eq_true] at names
    rw [charsList_singleton, bodies_chars t names.1, quotedAtomsIn, quotedAtomsIn, List.append_nil]
  | t :: u :: us, names => by
    rw [namesAllIn, Bool.and_eq_true] at names
    have others := bodies_charsList (u :: us) names.2
    rw [lexemes_charsList_cons_cons names.1, Lexeme.bodies_append, bodies_chars t names.1, Lexeme.bodies_char,
      Lexeme.bodies_char, others, ← List.map_append]
    rfl

end

end Term

/-- Texts that are alike are the same without layout, and in quotes. -/
theorem Alike.texts {a b : List Char} (h : Alike a b) :
    withoutLayout (String.ofList a) = withoutLayout (String.ofList b) ∧
      quotedBodies (String.ofList a) = quotedBodies (String.ofList b) := by
  simp only [withoutLayout, quotedBodies, String.toList_ofList]
  refine ⟨by rw [h.same], ?_⟩
  rw [← bodies_visible, h.same, bodies_visible]

namespace Term

/-- **Layout changes nothing but blanks.** Whatever blanks indent the lines of a term, without the blanks outside of
quoted atoms they are the one-line text without its own; what stands in quotes is in both texts, character by
character, the atoms of the term with their quotes written twice. The same holds of facts. -/
theorem format_changes_layout_only {t : Term} {unit : String} (names : t.isQuoteless = true)
    (blank : ∀ c ∈ unit.toList, Text.isBlank c = true) :
    withoutLayout (t.format unit) = withoutLayout t.encode ∧
    quotedBodies (t.format unit) = t.quotedAtoms.map Atom.double ∧
    quotedBodies t.encode = t.quotedAtoms.map Atom.double ∧
    withoutLayout (t.render (.indented unit)) = withoutLayout (t.render .oneLine) ∧
    quotedBodies (t.render (.indented unit)) = quotedBodies (t.render .oneLine) := by
  have alike := alike_layout blank t 0 names
  have bodies : quotedBodies t.encode = t.quotedAtoms.map Atom.double := by
    rw [quotedBodies, encode, String.toList_ofList, bodies_chars t names]
  have fact : Alike (t.layout unit.toList 0 ++ ['.']) (t.chars ++ ['.']) := alike.concat (by decide)
  have indented : t.render (.indented unit) = String.ofList (t.layout unit.toList 0 ++ ['.']) := by
    rw [String.ofList_append]
    rfl
  have oneLine : t.render .oneLine = String.ofList (t.chars ++ ['.']) := by
    rw [String.ofList_append]
    rfl
  rw [indented, oneLine]
  exact ⟨alike.texts.1, alike.texts.2.trans bodies, bodies, fact.texts.1, fact.texts.2⟩

/-- A term of several lines with line feeds, commas, blanks and quotes in its atoms, indented by tabs and spaces. -/
theorem format_changes_layout_only_nested :
    let t : Term := .compound "f g" [.list [.atom "a', \n 'b"], .list [.list [], .atom " "]]
    (t.isQuoteless = true ∧ ∀ c ∈ "\t ".toList, Text.isBlank c = true) ∧
      withoutLayout (t.format "\t ") = withoutLayout t.encode := by
  have blank : ∀ c ∈ "\t ".toList, Text.isBlank c = true := List.all_eq_true.1 rfl
  exact ⟨⟨rfl, blank⟩, (format_changes_layout_only rfl blank).1⟩

end Term

end ProgramFacts
