import ProgramFacts.Proofs.TermLines

/-!
# The lines of a text

The text of a term cut at its line feeds. If its atoms have none, the pieces are the texts of the lines of the term, and
what a scan outside of quoted atoms finds in each is read off the line: how deep it is indented, whether a comma ends
it, and which brackets it opens.
-/

namespace ProgramFacts

/-! ## Brackets that a line leaves open -/

/-- How many brackets are left open behind the pieces, of `n` that are open before them. A closing bracket for which
none is open is passed over: it closes one of an earlier line. -/
def leftOpen (n : Nat) : List Lexeme → Nat
  | [] => n
  | l :: ls => leftOpen (n + l.rise).toNat ls

theorem leftOpen_append (n : Nat) (a b : List Lexeme) : leftOpen n (a ++ b) = leftOpen (leftOpen n a) b := by
  induction a generalizing n with
  | nil => rfl
  | cons l a ih => exact ih _

/-- Pieces that close no bracket of an earlier line leave open what they have opened. -/
theorem leftOpen_of_above {ls : List Lexeme} {n : Nat} (above : ∀ p q, ls = p ++ q → 0 ≤ n + depth p) :
    (leftOpen n ls : Int) = n + depth ls := by
  induction ls generalizing n with
  | nil => simp [leftOpen]
  | cons l ls ih =>
    have first := above [l] ls rfl
    simp only [depth_cons, depth_nil] at first
    have cast : ((n + l.rise).toNat : Int) = n + l.rise := Int.toNat_of_nonneg (by omega)
    have later : ∀ p q, ls = p ++ q → 0 ≤ ((n + l.rise).toNat : Int) + depth p := by
      rintro p q rfl
      have := above (l :: p) q rfl
      rw [depth_cons] at this
      omega
    rw [leftOpen, ih later, cast, depth_cons]
    omega

theorem Balanced.leftOpen {ls : List Lexeme} (h : Balanced ls) (n : Nat) : ProgramFacts.leftOpen n ls = n := by
  have above : ∀ p q, ls = p ++ q → 0 ≤ (n : Int) + depth p := by
    intro p q cut
    have := h.above p q cut
    omega
  have same := leftOpen_of_above above
  rw [h.level] at same
  omega

namespace Term

/-! ## What lines are like -/

theorem mem_charsList {ts : List Term} {u : Term} {c : Char} (there : u ∈ ts) (member : c ∈ u.chars) :
    c ∈ charsList ts := by
  induction ts with
  | nil => cases there
  | cons t ts ih =>
    rw [charsList]
    rcases List.mem_cons.1 there with rfl | later
    · exact List.mem_append_left _ member
    · have more : ts.isEmpty = false := by
        cases ts with
        | nil => cases later
        | cons w ws => rfl
      simp [more, ih later]

/-- What lines show: terms that are well named and have no line feed, simple ones as a whole and others bracket by
bracket. -/
structure Line.Sound (l : Line) : Prop where
  named : l.term.isWellNamed = true
  feedless : '\n' ∉ l.term.chars
  whole_iff : l.extent = .whole ↔ l.term.isSimple = true

theorem isWellNamed_of_mem_parts {t u : Term} (named : t.isWellNamed = true) (there : u ∈ t.parts) :
    u.isWellNamed = true := by
  have all : namesAllIn (fun n => Atom.isIdentifier n.toList) t.parts = true := by
    cases t with
    | atom v => cases there
    | compound n ts =>
      simp only [isWellNamed, namesAll, Bool.and_eq_true] at named
      exact named.2
    | list ts => exact named
  rw [namesAllIn_eq_all] at all
  exact List.all_eq_true.1 all u there

theorem feedless_of_mem_parts {t u : Term} (feedless : '\n' ∉ t.chars) (there : u ∈ t.parts) : '\n' ∉ u.chars := by
  have branch : t.isAtom = false := by
    cases t with
    | atom v => cases there
    | compound n ts => rfl
    | list ts => rfl
  intro member
  rw [chars_of_not_isAtom branch] at feedless
  simp [mem_charsList there member] at feedless

theorem mem_linesIn {place : List Nat} {ts : List Term} {i : Nat} {l : Line} (there : l ∈ linesIn place i ts) :
    ∃ (j : Nat) (u : Term) (comma : Bool), ts[j]? = some u ∧ l ∈ u.lines (place ++ [i + j]) comma := by
  induction ts generalizing i with
  | nil => simp [linesIn] at there
  | cons t ts ih =>
    rw [linesIn, List.mem_append] at there
    rcases there with first | later
    · exact ⟨0, t, _, rfl, first⟩
    · obtain ⟨j, u, comma, found, within⟩ := ih later
      exact ⟨j + 1, u, comma, found, by rwa [Nat.add_right_comm, Nat.add_assoc] at within⟩

theorem sound_lines (t : Term) : t.isWellNamed = true → '\n' ∉ t.chars →
    ∀ (place : List Nat) (comma : Bool), ∀ l ∈ t.lines place comma, l.Sound := by
  induction t using induction_on_parts with
  | step t ih =>
    intro named feedless place comma l there
    cases simple : t.isSimple with
    | true =>
      rw [lines_of_isSimple simple, List.mem_singleton] at there
      subst there
      exact ⟨named, feedless, by simp [simple]⟩
    | false =>
      simp only [lines_of_not_isSimple simple, List.cons_append, List.mem_cons, List.mem_append, List.not_mem_nil,
        or_false] at there
      rcases there with rfl | inner | rfl
      · exact ⟨named, feedless, by simp [simple]⟩
      · obtain ⟨j, u, comma, found, within⟩ := mem_linesIn inner
        have member := List.mem_of_getElem? found
        exact ih u member (isWellNamed_of_mem_parts named member) (feedless_of_mem_parts feedless member) _ _ l within
      · exact ⟨named, feedless, by simp [simple]⟩

/-- What a line shows is at its place. -/
theorem at?_lines {root : Term} (t : Term) : ∀ (place : List Nat) (comma : Bool), root.at? place = some t →
    ∀ l ∈ t.lines place comma, root.at? l.place = some l.term := by
  induction t using induction_on_parts with
  | step t ih =>
    intro place comma here l there
    cases simple : t.isSimple with
    | true =>
      rw [lines_of_isSimple simple, List.mem_singleton] at there
      rw [there, here]
    | false =>
      simp only [lines_of_not_isSimple simple, List.cons_append, List.mem_cons, List.mem_append, List.not_mem_nil,
        or_false] at there
      rcases there with rfl | inner | rfl
      · exact here
      · obtain ⟨j, u, comma, found, within⟩ := mem_linesIn inner
        refine ih u (List.mem_of_getElem? found) _ comma ?_ l within
        simp [at?_append, here, at?, found]
      · exact here

theorem mem_of_mem_indentation {unit : List Char} {level : Nat} {c : Char} (member : c ∈ indentation unit level) :
    c ∈ unit := by
  induction level with
  | zero => cases member
  | succ level ih => exact (List.mem_append.1 member).elim id ih

namespace Line.Sound

variable {l : Line}

theorem not_isAtom (h : l.Sound) (part : l.extent ≠ .whole) : l.term.isAtom = false :=
  isAtom_of_not_isSimple (by simpa using mt h.whole_iff.2 part)

/-- The content of a line is a whole term, a name and a bracket that opens, or a bracket that closes. -/
theorem content_cases (h : l.Sound) :
    (l.extent = .whole ∧ Whole (lexemes l.content)) ∨
    (l.extent = .opening ∧ ∃ head o, l.content = head ++ [o] ∧
      (∀ k ∈ head.map Lexeme.char, k.isFlat = true) ∧ Atom.quote ∉ head ∧ (o = '(' ∨ o = '[')) ∨
    (l.extent = .closing ∧ ∃ c, l.content = [c] ∧ (c = ')' ∨ c = ']')) := by
  obtain ⟨place, t, extent, comma⟩ := l
  cases extent with
  | whole => exact .inl ⟨rfl, whole_chars t h.named⟩
  | opening =>
    refine .inr (.inl ⟨rfl, ?_⟩)
    have branch := h.not_isAtom (by simp)
    have named := h.named
    cases t with
    | atom v => cases branch
    | compound n ts =>
      simp only [isWellNamed, namesAll, Bool.and_eq_true] at named
      exact ⟨n.toList, '(', rfl, isFlat_identifier named.1, Atom.quote_not_mem_identifier named.1, .inl rfl⟩
    | list ts => exact ⟨[], '[', rfl, by simp, by simp, .inr rfl⟩
  | closing =>
    refine .inr (.inr ⟨rfl, ?_⟩)
    have branch := h.not_isAtom (by simp)
    cases t with
    | atom v => cases branch
    | compound n ts => exact ⟨')', rfl, .inl rfl⟩
    | list ts => exact ⟨']', rfl, .inr rfl⟩

theorem closed_content (h : l.Sound) : Closed l.content := by
  rcases h.content_cases with ⟨whole, -⟩ | ⟨-, head, o, same, -, quoteless, bracket⟩ | ⟨-, c, same, bracket⟩
  · rw [Line.content, whole]
    exact closed_chars l.term (isQuoteless_of_isWellNamed h.named)
  · rw [same]
    apply Closed.concat (.quoteless quoteless)
    rcases bracket with rfl | rfl <;> decide
  · rw [same]
    apply Closed.quoteless
    rcases bracket with rfl | rfl <;> decide

/-- The pieces of a line: its indentation, its content and its comma. -/
theorem lexemes_text (h : l.Sound) {unit : List Char} (blank : ∀ c ∈ unit, Text.isBlank c = true) :
    lexemes (l.text unit) = (indentation unit l.place.length).map .char ++
      (lexemes l.content ++ if l.comma then [.char ','] else []) := by
  have quoteless := quote_not_mem_blanks (isBlank_indentation blank l.place.length)
  rw [Line.text, List.append_assoc, lexemes_append quoteless]
  cases l.comma with
  | true => rw [if_pos rfl, if_pos rfl, h.closed_content.lexemes_concat (by decide)]
  | false => simp

theorem closed_text (h : l.Sound) {unit : List Char} (blank : ∀ c ∈ unit, Text.isBlank c = true) :
    Closed (l.text unit) := by
  have content : Closed (l.content ++ if l.comma then [','] else []) := by
    cases l.comma with
    | true => exact h.closed_content.concat (by decide)
    | false => simpa using h.closed_content
  rw [Line.text, List.append_assoc]
  exact content.prepend (quote_not_mem_blanks (isBlank_indentation blank l.place.length))

theorem depth_text (h : l.Sound) {unit : List Char} (blank : ∀ c ∈ unit, Text.isBlank c = true) :
    depth (lexemes (l.text unit)) = l.extent.rise := by
  have indent : depth ((indentation unit l.place.length).map Lexeme.char) = 0 :=
    depth_of_rise fun k there => Lexeme.rise_of_isLayout (isLayout_blanks (isBlank_indentation blank _) k there)
  have comma : depth (if l.comma then [Lexeme.char ','] else []) = 0 := by
    cases l.comma <;> decide
  have content : depth (lexemes l.content) = l.extent.rise := by
    rcases h.content_cases with ⟨extent, whole⟩ | ⟨extent, head, o, same, flat, quoteless, bracket⟩ |
      ⟨extent, c, same, bracket⟩
    · rw [whole.level, extent]
      rfl
    · have opens : (Lexeme.char o).rise = 1 := by rcases bracket with rfl | rfl <;> decide
      have other : o ≠ Atom.quote := by rcases bracket with rfl | rfl <;> decide
      have level := depth_of_rise fun k there => Lexeme.rise_of_isFlat (flat k there)
      rw [same, lexemes_append quoteless, depth_append, level, extent, lexemes_cons other]
      simp [opens, Extent.rise]
    · rw [same, extent]
      rcases bracket with rfl | rfl <;> decide
  rw [h.lexemes_text blank, depth_append, depth_append, indent, content, comma]
  omega

/-- A line opens at most one bracket that it does not close. -/
theorem leftOpen_text (h : l.Sound) {unit : List Char} (blank : ∀ c ∈ unit, Text.isBlank c = true) :
    leftOpen 0 (lexemes (l.text unit)) ≤ 1 := by
  have indent : Balanced ((indentation unit l.place.length).map Lexeme.char) := by
    have layout := isLayout_blanks (isBlank_indentation blank l.place.length)
    exact .of_rise (fun k there => Lexeme.rise_of_isLayout (layout k there))
      fun k there => Lexeme.isInner_of_isLayout (layout k there)
  have comma : Balanced (if l.comma then [Lexeme.char ','] else []) := by
    cases l.comma with
    | true => exact .of_rise (by decide) (by decide)
    | false => exact .of_rise (by simp) (by simp)
  rw [h.lexemes_text blank, leftOpen_append, leftOpen_append, indent.leftOpen, comma.leftOpen]
  rcases h.content_cases with ⟨-, whole⟩ | ⟨-, head, o, same, flat, quoteless, bracket⟩ | ⟨-, c, same, bracket⟩
  · rw [whole.leftOpen]
    omega
  · rw [same, lexemes_append quoteless, leftOpen_append, (Whole.of_flat flat).leftOpen]
    rcases bracket with rfl | rfl <;> decide
  · rw [same]
    rcases bracket with rfl | rfl <;> decide

/-- The content of a line begins with no blank, and with a closing bracket only if it is one. -/
theorem first (h : l.Sound) :
    ∃ c, l.content.head? = some c ∧ Text.isBlank c = false ∧ (c = ')' ∨ c = ']' ↔ l.extent = .closing) := by
  by_cases closing : l.extent = .closing
  · rcases h.content_cases with ⟨extent, -⟩ | ⟨extent, -⟩ | ⟨-, c, same, bracket⟩
    · simp [extent] at closing
    · simp [extent] at closing
    · rw [same]
      exact ⟨c, rfl, by rcases bracket with rfl | rfl <;> decide, iff_of_true bracket closing⟩
  · obtain ⟨c, head, kind⟩ := (hasEnds_chars l.term).first h.named
    have same : l.content.head? = l.term.chars.head? := by
      rcases h.content_cases with ⟨extent, -⟩ | ⟨extent, -⟩ | ⟨extent, -⟩
      · rw [Line.content, extent]
      · have branch := h.not_isAtom (by simp [extent])
        rw [Line.content, extent, chars_of_not_isAtom branch]
        cases term : l.term with
        | atom v => simp [term, isAtom] at branch
        | compound n ts => cases n.toList <;> simp [opening]
        | list ts => rfl
      · exact absurd extent closing
    refine ⟨c, same.trans head, ((hasEnds_chars l.term).tight h.named).isBlank_head head, iff_of_false ?_ closing⟩
    rintro (rfl | rfl) <;> exact absurd kind (by decide)

/-- The last piece of a line is a comma outside of quotes only if the comma is behind its content. -/
theorem getLast?_text (h : l.Sound) {unit : List Char} (blank : ∀ c ∈ unit, Text.isBlank c = true) :
    (lexemes (l.text unit)).getLast? = some (.char ',') ↔ l.comma = true := by
  rw [h.lexemes_text blank, ← List.append_assoc]
  cases l.comma with
  | true => simp
  | false =>
    have other : (lexemes l.content).getLast? ≠ some (.char ',') := by
      intro last
      rcases h.content_cases with ⟨-, whole⟩ | ⟨-, head, o, same, -, quoteless, bracket⟩ | ⟨-, c, same, bracket⟩
      · -- A comma at the end would stand in a bracket that is never closed.
        obtain ⟨p, pieces⟩ := List.getLast?_eq_some_iff.1 last
        have nested := whole.nested p [] pieces
        have level := whole.level
        have flat : (Lexeme.char ',').rise = 0 := by decide
        rw [pieces, depth_append, depth_cons, depth_nil, flat] at level
        omega
      · rw [same, lexemes_append quoteless] at last
        rcases bracket with rfl | rfl <;> simp [lexemes, Quotation.lexemes, Atom.quote] at last
      · rw [same] at last
        rcases bracket with rfl | rfl <;> exact absurd last (by decide)
    have some? : lexemes l.content ≠ [] := by
      intro none
      obtain ⟨c, head, -⟩ := h.first
      rw [← text_lexemes l.content, none] at head
      cases head
    simpa [List.getLast?_append_of_ne_nil _ some?] using other

theorem mem_chars_of_mem_content (h : l.Sound) {c : Char} (member : c ∈ l.content) : c ∈ l.term.chars := by
  rcases h.content_cases with ⟨extent, -⟩ | ⟨extent, -⟩ | ⟨extent, -⟩
  · rwa [Line.content, extent] at member
  · rw [Line.content, extent] at member
    rw [chars_of_not_isAtom (h.not_isAtom (by simp [extent]))]
    simp [member]
  · rw [Line.content, extent] at member
    rw [chars_of_not_isAtom (h.not_isAtom (by simp [extent]))]
    simp [member]

theorem feedless_text (h : l.Sound) {unit : List Char} (feedless : '\n' ∉ unit) : '\n' ∉ l.text unit := by
  have indent : '\n' ∉ indentation unit l.place.length := fun member => feedless (mem_of_mem_indentation member)
  have content : '\n' ∉ l.content := fun member => h.feedless (h.mem_chars_of_mem_content member)
  rw [Line.text]
  cases l.comma <;> simp [indent, content]

end Line.Sound

/-! ## Terms without line feeds -/

mutual

/-- The values of the atoms in a term. -/
def values : Term → List String
  | .atom v => [v]
  | .compound _ ts => valuesIn ts
  | .list ts => valuesIn ts

def valuesIn : List Term → List String
  | [] => []
  | t :: ts => t.values ++ valuesIn ts

end

theorem mem_valuesIn {ts : List Term} {u : Term} {v : String} (there : u ∈ ts) (member : v ∈ u.values) :
    v ∈ valuesIn ts := by
  induction ts with
  | nil => cases there
  | cons t ts ih =>
    rw [valuesIn, List.mem_append]
    rcases List.mem_cons.1 there with rfl | later
    · exact .inl member
    · exact .inr (ih later)

theorem mem_of_mem_charsList {ts : List Term} {c : Char} (member : c ∈ charsList ts) :
    c = ',' ∨ c = ' ' ∨ ∃ u ∈ ts, c ∈ u.chars := by
  induction ts with
  | nil => cases member
  | cons t ts ih =>
    rw [charsList, List.mem_append] at member
    rcases member with first | later
    · exact .inr (.inr ⟨t, by simp, first⟩)
    · split at later
      · cases later
      · rcases List.mem_cons.1 later with rfl | later
        · exact .inl rfl
        rcases List.mem_cons.1 later with rfl | later
        · exact .inr (.inl rfl)
        rcases ih later with rfl | rfl | ⟨u, there, within⟩
        · exact .inl rfl
        · exact .inr (.inl rfl)
        · exact .inr (.inr ⟨u, by simp [there], within⟩)

theorem lineFeed_not_mem_identifier {cs : List Char} (word : Atom.isIdentifier cs = true) : '\n' ∉ cs := by
  intro member
  have wordChar := Atom.isWordChar_of_mem word member
  revert wordChar
  decide

/-- A term has line feeds only in the values of its atoms. -/
theorem lineFeed_not_mem_chars (t : Term) :
    t.isWellNamed = true → (∀ v ∈ t.values, '\n' ∉ v.toList) → '\n' ∉ t.chars := by
  induction t using induction_on_parts with
  | step t ih =>
    intro named feedless member
    have parts : t.isAtom = false → '\n' ∉ charsList t.parts := by
      intro branch within
      rcases mem_of_mem_charsList within with comma | space | ⟨u, there, inner⟩
      · cases comma
      · cases space
      · refine ih u there (isWellNamed_of_mem_parts named there) (fun v found => feedless v ?_) inner
        cases t with
        | atom v => cases branch
        | compound n ts => exact mem_valuesIn there found
        | list ts => exact mem_valuesIn there found
    cases t with
    | atom v =>
      rcases Atom.mem_encode member with quote | within
      · cases quote
      · exact feedless v (by simp [values]) within
    | compound n ts =>
      have word : Atom.isIdentifier n.toList = true := by
        simp only [isWellNamed, namesAll, Bool.and_eq_true] at named
        exact named.1
      have name := lineFeed_not_mem_identifier word
      simp [chars, name, show '\n' ∉ charsList ts from parts rfl] at member
    | list ts => simp [chars, show '\n' ∉ charsList ts from parts rfl] at member

/-! ## The lines of a text -/

/-- Where texts end before a line feed, they are cut as if they stood alone. -/
theorem lexemes_join {texts : List (List Char)} (closed : ∀ text ∈ texts, Closed text) :
    lexemes (Text.join '\n' texts) = List.intercalate [.char '\n'] (texts.map lexemes) := by
  induction texts with
  | nil => rfl
  | cons text texts ih =>
    cases texts with
    | nil => simp [Text.join]
    | cons next texts =>
      rw [Text.join_cons_of_ne_nil _ _ (by simp), (closed text (by simp)).lexemes_append_cons (by decide),
        ih fun k there => closed k (by simp [there])]
      simp [List.intercalate]

theorem lines_ne_nil (t : Term) (place : List Nat) (comma : Bool) : t.lines place comma ≠ [] := by
  obtain ⟨l, head, -⟩ := (borders_lines t place comma).first
  intro none
  simp [none] at head

theorem length_lines_eq_one (t : Term) (place : List Nat) (comma : Bool) :
    (t.lines place comma).length = 1 ↔ t.isSimple = true := by
  cases simple : t.isSimple with
  | true => simp [lines_of_isSimple simple]
  | false => simp [lines_of_not_isSimple simple]

/-- The texts of the lines of a term. -/
def lineTexts (unit : String) (t : Term) : List (List Char) := (t.lines [] false).map (Line.text unit.toList)

/-- The text of a term is made of its lines. -/
theorem format_eq_join (unit : String) (t : Term) : (t.format unit).toList = Text.join '\n' (t.lineTexts unit) := by
  have same := layout_eq_lines unit.toList t [] false
  have ends := Text.flatMap_concat '\n' (mt List.map_eq_nil_iff.1 (t.lines_ne_nil [] false) : t.lineTexts unit ≠ [])
  rw [lineTexts, List.flatMap_map] at ends
  rw [ends] at same
  simpa [indentation, format, lineTexts] using same

/-- A term stays on one line if it is an atom, a list of atoms, or a compound of atoms and empty lists. -/
theorem isSimple_iff (t : Term) : t.isSimple = true ↔
    (∃ v, t = .atom v) ∨ (∃ vs : List String, t = .list (vs.map .atom)) ∨
      ∃ n ts, t = .compound n ts ∧ ∀ u ∈ ts, u = .list [] ∨ ∃ v, u = .atom v := by
  cases t with
  | atom v => simp [isSimple]
  | compound n ts =>
    have small : ∀ u : Term, u.isSmall = true ↔ u = .list [] ∨ ∃ v, u = .atom v := by
      intro u
      cases u <;> simp [isSmall]
    simp [isSimple, List.all_eq_true, small]
  | list ts =>
    have atoms : ts.all isAtom = true ↔ ∃ vs : List String, ts = vs.map .atom := by
      induction ts with
      | nil => simp
      | cons u ts ih =>
        cases u <;> simp [isAtom, ih, List.map_eq_cons_iff, eq_comm]
    simp [isSimple, atoms]

/-- The text is indented by as many units as brackets are open before it, or by one less if it begins with a bracket
that closes; what is indented is not empty and does not begin with a blank. -/
def Indented (unit : List Char) (before : List (List Char)) (text : List Char) : Prop :=
  ∃ content c level, text = indentation unit level ++ content ∧ content.head? = some c ∧ Text.isBlank c = false ∧
    (level : Int) = depth (before.flatMap lexemes) - if c = ')' ∨ c = ']' then 1 else 0

theorem indented_text {t : Term} {unit : List Char} (sound : ∀ l ∈ t.lines [] false, l.Sound)
    (blank : ∀ c ∈ unit, Text.isBlank c = true) {i : Nat} {l : Line} (here : (t.lines [] false)[i]? = some l) :
    Indented unit (((t.lines [] false).take i).map (Line.text unit)) (l.text unit) := by
  have member := List.mem_of_getElem? here
  obtain ⟨c, head, other, closes⟩ := (sound l member).first
  have before := (t.follows_lines [] false).before (fun k there => (sound k there).depth_text blank) here
  refine ⟨l.content ++ if l.comma then [','] else [], c, l.place.length, ?_, ?_, other, ?_⟩
  · rw [Line.text, List.append_assoc]
  · rw [List.head?_append, head]
    rfl
  · rw [List.flatMap_map]
    simp only [closes]
    rw [Line.before] at before
    simp only [List.length_nil, Int.natCast_zero, Int.zero_add] at before
    omega

/-- Lines are indented by the brackets that are open, end in a comma where a sibling follows, and open at most one
bracket. A term has one line exactly if it is simple, which is then its one-line text. -/
theorem format_lines {t : Term} {unit : String} (named : t.isWellNamed = true)
    (feedless : ∀ v ∈ t.values, '\n' ∉ v.toList) (blank : ∀ c ∈ unit.toList, c = ' ' ∨ c = '\t') :
    let ls := t.lines [] false
    let texts := Text.split '\n' (t.format unit).toList
    (texts = ls.map (Line.text unit.toList) ∧ ∀ l ∈ ls, t.at? l.place = some l.term) ∧
    lexemes (t.format unit).toList = List.intercalate [.char '\n'] (texts.map lexemes) ∧
    (∀ i text, texts[i]? = some text →
      Indented unit.toList (texts.take i) text ∧
      ((lexemes text).getLast? = some (.char ',') ↔ ∃ l m, ls[i]? = some l ∧ ls[i + 1]? = some m ∧ l.Precedes m) ∧
      leftOpen 0 (lexemes text) ≤ 1) ∧
    (texts.length = 1 ↔ (∃ v, t = .atom v) ∨ (∃ vs : List String, t = .list (vs.map .atom)) ∨
      ∃ n ts, t = .compound n ts ∧ ∀ u ∈ ts, u = .list [] ∨ ∃ v, u = .atom v) ∧
    (texts.length = 1 → t.format unit = t.encode) := by
  intro ls texts
  have sound : ∀ l ∈ ls, l.Sound := t.sound_lines named (t.lineFeed_not_mem_chars named feedless) [] false
  have isBlank : ∀ c ∈ unit.toList, Text.isBlank c = true := by
    intro c member
    rcases blank c member with rfl | rfl <;> decide
  have unitFeedless : '\n' ∉ unit.toList := by
    intro member
    rcases blank _ member with space | tab
    · cases space
    · cases tab
  have same : texts = ls.map (Line.text unit.toList) := by
    show Text.split '\n' (t.format unit).toList = t.lineTexts unit
    rw [format_eq_join]
    apply Text.split_join
    · intro text there
      obtain ⟨l, member, rfl⟩ := List.mem_map.1 there
      exact (sound l member).feedless_text unitFeedless
    · exact mt List.map_eq_nil_iff.1 (t.lines_ne_nil [] false)
  have one : texts.length = 1 ↔ t.isSimple = true := by
    rw [same, List.length_map]
    exact t.length_lines_eq_one [] false
  refine ⟨⟨same, at?_lines t [] false rfl⟩, ?_, ?_, one.trans t.isSimple_iff, ?_⟩
  · rw [format_eq_join, lexemes_join, same, lineTexts]
    intro text there
    obtain ⟨l, member, rfl⟩ := List.mem_map.1 there
    exact (sound l member).closed_text isBlank
  · intro i text found
    rw [same, List.getElem?_map, Option.map_eq_some_iff] at found
    obtain ⟨l, here, rfl⟩ := found
    have lSound := sound l (List.mem_of_getElem? here)
    refine ⟨?_, ?_, lSound.leftOpen_text isBlank⟩
    · rw [same, ← List.map_take]
      exact indented_text sound isBlank here
    · rw [lSound.getLast?_text isBlank, comma_iff here]
      simp [here, ls]
  · intro single
    rw [format, layout_of_isSimple (one.1 single), encode]

/-- Atoms of brackets, commas, quotes and blanks, an empty list in a compound and one in a list, and a tab. -/
theorem format_lines_nested :
    let t : Term := .compound "f" [.atom "a, ('", .list [.list [], .atom "]"], .compound "g" [.list [], .atom " )"]]
    (t.isWellNamed = true ∧ (∀ v ∈ t.values, '\n' ∉ v.toList) ∧ ∀ c ∈ "\t".toList, c = ' ' ∨ c = '\t') ∧
      (Text.split '\n' (t.format "\t").toList)[3]? = some "\t\t[],".toList ∧
      Indented "\t".toList ((Text.split '\n' (t.format "\t").toList).take 3) "\t\t[],".toList := by
  intro t
  have named : t.isWellNamed = true := by decide
  have feedless : ∀ v ∈ t.values, '\n' ∉ v.toList := by decide
  have blank : ∀ c ∈ "\t".toList, c = ' ' ∨ c = '\t' := fun _ member => .inr (List.mem_singleton.1 member)
  have fourth : (Text.split '\n' (t.format "\t").toList)[3]? = some "\t\t[],".toList := by
    rw [format, String.toList_ofList]
    rfl
  exact ⟨⟨named, feedless, blank⟩, fourth, ((format_lines named feedless blank).2.2.1 3 _ fourth).1⟩

end Term

end ProgramFacts
