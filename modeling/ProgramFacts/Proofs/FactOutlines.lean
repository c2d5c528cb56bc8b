import ProgramFacts.Proofs.Brackets
import ProgramFacts.Proofs.TermDecoding
import ProgramFacts.Text.Pieces

/-!
# What a scan finds in a fact

A scan that knows quotes and counts brackets finds the end of a fact and its arguments. The first bracket that it meets
is closed by the last piece but one, the only period is the last piece, and the commas at which no other bracket is open
divide the texts of the arguments. This is so for facts on one line and for facts on several.

Both ways to write a fact put blanks around the texts of its arguments and commas between them (`Spaced`); the scan
needs to know no more of them than that.
-/

namespace ProgramFacts

/-! ## Trimming -/

/-- A text that has no blank at either end. -/
structure Tight (a : List Char) : Prop where
  first : ∃ c, a.head? = some c ∧ Text.isBlank c = false
  last : ∃ c, a.getLast? = some c ∧ Text.isBlank c = false

theorem Tight.ne_nil {a : List Char} (tight : Tight a) : a ≠ [] := by
  rintro rfl
  simpa using tight.first

theorem Tight.isBlank_head {a : List Char} (tight : Tight a) {c : Char} (head : a.head? = some c) :
    Text.isBlank c = false := by
  obtain ⟨d, first, other⟩ := tight.first
  obtain rfl : d = c := by simpa [first] using head
  exact other

theorem dropWhile_blanks {w a : List Char} {c : Char} (blank : ∀ c ∈ w, Text.isBlank c = true)
    (first : a.head? = some c) (other : Text.isBlank c = false) : (w ++ a).dropWhile Text.isBlank = a := by
  rw [List.dropWhile_append_of_pos blank]
  cases a with
  | nil => rfl
  | cons d a =>
    obtain rfl : d = c := by simpa using first
    rw [List.dropWhile_cons_of_neg (by simp [other])]

/-- Trimming takes away the blanks around a text, and no more. -/
theorem trim_blanks {w a v : List Char} (before : ∀ c ∈ w, Text.isBlank c = true) (tight : Tight a)
    (behind : ∀ c ∈ v, Text.isBlank c = true) : Text.trim Text.isBlank (w ++ a ++ v) = a := by
  obtain ⟨c, first, firstOther⟩ := tight.first
  obtain ⟨d, last, lastOther⟩ := tight.last
  have front : (w ++ (a ++ v)).dropWhile Text.isBlank = a ++ v :=
    dropWhile_blanks before (by simp [first]) firstOther
  have back : (v.reverse ++ a.reverse).dropWhile Text.isBlank = a.reverse :=
    dropWhile_blanks (by simpa using behind) (by simpa using last) lastOther
  rw [Text.trim, Text.trimEnd, List.append_assoc, front, List.reverse_append, back, List.reverse_reverse]

/-! ## Cutting at commas -/

/-- The pieces between the commas at which one bracket is open. -/
def cut (depth : Int) (current : List Lexeme) : List Lexeme → List (List Lexeme)
  | [] => [current]
  | l :: ls =>
    if l = .char ',' ∧ depth = 1 then current :: cut depth [] ls
    else cut (depth + l.rise) (current ++ [l]) ls

/-- What stands between the outermost brackets, cut at the commas of depth one; nothing has no segments. -/
def segments (inner : List Lexeme) : List (List Lexeme) := if inner.isEmpty then [] else cut 1 [] inner

/-- The text of a segment without the blanks around it. -/
def trimmed (segment : List Lexeme) : List Char := Text.trim Text.isBlank (segment.flatMap Lexeme.text)

/-- The scan passes over pieces without a comma of depth one. -/
theorem cut_append {a : List Lexeme} {d : Int} (deeper : ∀ p q, a = p ++ .char ',' :: q → d + depth p ≠ 1)
    (current rest : List Lexeme) : cut d current (a ++ rest) = cut (d + depth a) (current ++ a) rest := by
  induction a generalizing d current with
  | nil => simp
  | cons l a ih =>
    have passes : ¬(l = .char ',' ∧ d = 1) := by
      rintro ⟨rfl, here⟩
      have := deeper [] a rfl
      simp at this
      omega
    have later : ∀ p q, a = p ++ .char ',' :: q → d + l.rise + depth p ≠ 1 := by
      rintro p q rfl
      have := deeper (l :: p) q rfl
      rw [depth_cons] at this
      omega
    rw [List.cons_append, cut, if_neg passes, ih later, depth_cons, List.append_assoc, List.singleton_append,
      Int.add_assoc]

theorem isLayout_blanks {w : List Char} (blank : ∀ c ∈ w, Text.isBlank c = true) :
    ∀ l ∈ w.map Lexeme.char, l.isLayout = true := by
  intro l there
  obtain ⟨c, member, rfl⟩ := List.mem_map.1 there
  exact blank c member

/-- Blanks are passed over at any depth. -/
theorem cut_blanks {w : List Char} (blank : ∀ c ∈ w, Text.isBlank c = true) (d : Int) (current rest : List Lexeme) :
    cut d current (w.map .char ++ rest) = cut d (current ++ w.map .char) rest := by
  have level : depth (w.map Lexeme.char) = 0 :=
    depth_of_rise fun l there => Lexeme.rise_of_isLayout (isLayout_blanks blank l there)
  have noComma : ∀ p q, w.map Lexeme.char = p ++ .char ',' :: q → d + depth p ≠ 1 := by
    intro p q same
    have impossible := isLayout_blanks blank (.char ',') (by simp [same])
    exact absurd impossible (by decide)
  rw [cut_append noComma, level, Int.add_zero]

theorem Whole.cut {a : List Lexeme} (h : Whole a) (current rest : List Lexeme) :
    ProgramFacts.cut 1 current (a ++ rest) = ProgramFacts.cut 1 (current ++ a) rest := by
  have deeper : ∀ p q, a = p ++ .char ',' :: q → 1 + depth p ≠ 1 := by
    intro p q same
    have := h.nested p q same
    omega
  rw [cut_append deeper, h.level, Int.add_zero]

/-- Texts with blanks around them and commas between them. -/
inductive Spaced : List Lexeme → List (List Char) → Prop
  | last {w a v : List Char} (before : ∀ c ∈ w, Text.isBlank c = true) (behind : ∀ c ∈ v, Text.isBlank c = true) :
      Spaced (w.map .char ++ lexemes a ++ v.map .char) [a]
  | next {w a : List Char} {ls : List Lexeme} {as : List (List Char)} (before : ∀ c ∈ w, Text.isBlank c = true)
      (others : Spaced ls as) : Spaced (w.map .char ++ lexemes a ++ .char ',' :: ls) (a :: as)

theorem text_chars (w : List Char) : (w.map Lexeme.char).flatMap Lexeme.text = w := by
  induction w with
  | nil => rfl
  | cons c w ih => simp [Lexeme.text, ih]

/-- The scan finds the texts. -/
theorem Spaced.segments {ls : List Lexeme} {as : List (List Char)} (h : Spaced ls as)
    (good : ∀ a ∈ as, Whole (lexemes a) ∧ Tight a) : (segments ls).map trimmed = as := by
  have cuts : (ProgramFacts.cut 1 [] ls).map trimmed = as := by
    induction h with
    | @last w a v before behind =>
      obtain ⟨whole, tight⟩ := good a (by simp)
      rw [List.append_assoc, cut_blanks before, whole.cut, ← List.append_nil (v.map Lexeme.char), cut_blanks behind]
      simp only [ProgramFacts.cut, List.nil_append, List.map_cons, List.map_nil, trimmed, List.flatMap_append,
        text_chars, text_lexemes]
      rw [trim_blanks before tight behind]
    | @next w a ls as before others ih =>
      obtain ⟨whole, tight⟩ := good a (by simp)
      have first : trimmed (w.map .char ++ lexemes a) = a := by
        have trims := trim_blanks before tight (v := []) (by simp)
        rw [List.append_nil] at trims
        rw [trimmed, List.flatMap_append, text_chars, text_lexemes, trims]
      rw [List.append_assoc, cut_blanks before, whole.cut, ProgramFacts.cut, if_pos ⟨rfl, rfl⟩, List.map_cons,
        List.nil_append, first, ih fun b there => good b (List.mem_cons_of_mem a there)]
  have some? : ls ≠ [] := by
    rintro rfl
    have empty : as = [[]] := cuts.symm
    exact (good [] (by simp [empty])).2.ne_nil rfl
  rw [ProgramFacts.segments, if_neg (by simpa using some?), cuts]

/-! ## The texts of terms -/

theorem Atom.isBlank_of_isWordChar {c : Char} (word : Atom.isWordChar c = true) : Text.isBlank c = false := by
  have both : ∀ {a b : UInt32}, (decide (c.val ≥ a) && decide (c.val ≤ b)) = true → c.val ≥ a ∧ c.val ≤ b := by
    intro a b within
    rwa [Bool.and_eq_true, decide_eq_true_eq, decide_eq_true_eq] at within
  have bounds : 48 ≤ c.toNat ∧ c.toNat ≤ 122 := by
    simp only [Atom.isWordChar, Bool.or_eq_true, beq_iff_eq] at word
    rcases word with ((lower | upper) | digit) | rfl
    · have within : c.val ≥ 'a'.val ∧ c.val ≤ 'z'.val := both lower
      exact ⟨Nat.le_trans (by decide) within.1, within.2⟩
    · have within : c.val ≥ 'A'.val ∧ c.val ≤ 'Z'.val := of_decide_eq_true upper
      exact ⟨Nat.le_trans (by decide) within.1, Nat.le_trans within.2 (by decide)⟩
    · have within : c.val ≥ '0'.val ∧ c.val ≤ '9'.val := both digit
      exact ⟨within.1, Nat.le_trans within.2 (by decide)⟩
    · decide
  rw [Bool.eq_false_iff, Text.isBlank, ne_eq, Text.inRanges_iff]
  rintro ⟨r, there, low, high⟩
  have apart : ∀ r ∈ Text.blankRanges, r.2 < 48 ∨ 122 < r.1 := by decide
  have := apart r there
  omega

namespace Term

/-- The text has the first and the last characters of texts of the term. -/
def HasEnds : Term → List Char → Prop
  | .atom v, a => a = Atom.encode v.toList
  | .compound n _, a => ∃ b, a = n.toList ++ '(' :: b ++ [')']
  | .list _, a => ∃ b, a = '[' :: b ++ [']']

theorem hasEnds_chars (t : Term) : t.HasEnds t.chars := by
  cases t with
  | atom v => rfl
  | compound n ts => exact ⟨_, rfl⟩
  | list ts => exact ⟨_, rfl⟩

theorem hasEnds_layout (unit : List Char) (level : Nat) (t : Term) : t.HasEnds (t.layout unit level) := by
  cases t with
  | atom v => rfl
  | compound n ts => exact ⟨_, rfl⟩
  | list ts => exact ⟨_, rfl⟩

/-- The text of a term begins with a quote, with a character of a word or with a bracket. -/
theorem HasEnds.first {t : Term} {a : List Char} (h : t.HasEnds a) (named : t.isWellNamed = true) :
    ∃ c, a.head? = some c ∧ (c = Atom.quote ∨ Atom.isWordChar c = true ∨ c = '[') := by
  have identifier : ∀ {cs : List Char}, Atom.isIdentifier cs = true →
      ∃ c, cs.head? = some c ∧ Atom.isWordChar c = true := by
    intro cs word
    cases cs with
    | nil => cases word
    | cons c cs => exact ⟨c, rfl, Atom.isWordChar_of_mem word (by simp)⟩
  cases t with
  | atom v =>
    rw [h, Atom.encode_eq]
    split
    · next plain =>
      obtain ⟨c, first, word⟩ := identifier (Atom.isIdentifier_of_isPlain plain)
      exact ⟨c, first, .inr (.inl word)⟩
    · exact ⟨_, rfl, .inl rfl⟩
  | compound n ts =>
    obtain ⟨b, rfl⟩ := h
    simp only [isWellNamed, namesAll, Bool.and_eq_true] at named
    obtain ⟨c, first, word⟩ := identifier named.1
    exact ⟨c, by simp [first], .inr (.inl word)⟩
  | list ts =>
    obtain ⟨b, rfl⟩ := h
    exact ⟨'[', rfl, .inr (.inr rfl)⟩

theorem HasEnds.tight {t : Term} {a : List Char} (h : t.HasEnds a) (named : t.isWellNamed = true) : Tight a := by
  have other : ∀ c, c = Atom.quote ∨ Atom.isWordChar c = true ∨ c = '[' → Text.isBlank c = false := by
    rintro c (rfl | word | rfl)
    · decide
    · exact Atom.isBlank_of_isWordChar word
    · decide
  obtain ⟨c, first, kind⟩ := h.first named
  refine ⟨⟨c, first, other c kind⟩, ?_⟩
  cases t with
  | atom v =>
    rw [h]
    obtain ⟨d, last, kind⟩ := getLast?_encode_atom v.toList
    exact ⟨d, last, other d (kind.imp_right .inl)⟩
  | compound n ts =>
    obtain ⟨b, rfl⟩ := h
    exact ⟨')', List.getLast?_concat, by decide⟩
  | list ts =>
    obtain ⟨b, rfl⟩ := h
    exact ⟨']', List.getLast?_concat, by decide⟩

/-- A part of a compound that stays on one line is written as on one line. -/
theorem layout_of_isSmall {t : Term} (small : t.isSmall = true) (unit : List Char) (level : Nat) :
    t.layout unit level = t.chars := by
  cases t with
  | atom v => rfl
  | compound n ts => cases small
  | list ts =>
    obtain rfl : ts = [] := by simpa [isSmall] using small
    rfl

/-! ## The arguments of a fact -/

/-- The blanks of a style are blanks. -/
def Style.IsBlank : Style → Prop
  | .oneLine => True
  | .indented unit => ∀ c ∈ unit.toList, Text.isBlank c = true

/-- The text of an argument of a fact: on one line, or one level deeper than the fact. -/
def ownText (style : Style) (t : Term) : List Char :=
  match style with
  | .oneLine => t.chars
  | .indented unit => t.layout unit.toList 1

/-- What stands between the brackets of a fact. -/
def inside (style : Style) (ts : List Term) : List Char :=
  match style with
  | .oneLine => charsList ts
  | .indented unit =>
    if ts.all isSmall then charsList ts else '\n' :: layoutLines unit.toList 1 ts ++ indentation unit.toList 0

theorem toList_render_compound (style : Style) (n : String) (ts : List Term) :
    ((Term.compound n ts).render style).toList = n.toList ++ '(' :: inside style ts ++ [')', '.'] := by
  cases style with
  | oneLine => simp [render, styled, encode, chars, inside]
  | indented unit => simp [render, styled, format, layout, inside]

theorem whole_ownText {style : Style} (blank : style.IsBlank) {t : Term} (named : t.isWellNamed = true) :
    Whole (lexemes (t.ownText style)) := by
  cases style with
  | oneLine => exact whole_chars t named
  | indented unit => exact whole_layout blank named 1

theorem tight_ownText (style : Style) {t : Term} (named : t.isWellNamed = true) : Tight (t.ownText style) := by
  cases style with
  | oneLine => exact (hasEnds_chars t).tight named
  | indented unit => exact (hasEnds_layout unit.toList 1 t).tight named

/-- Between the brackets of a fact stands what stands there on one line, but for layout. -/
theorem alike_inside {style : Style} (blank : style.IsBlank) {ts : List Term}
    (names : namesAllIn (fun n => !n.toList.contains Atom.quote) ts = true) :
    Alike (inside style ts) (charsList ts) := by
  have closed := closed_charsList ts names
  cases style with
  | oneLine => exact .refl closed
  | indented unit => exact alike_parts blank 0 closed (alike_layoutLines blank ts 1 names) _

theorem spaced_last {w a v : List Char} (before : ∀ c ∈ w, Text.isBlank c = true) (closed : Closed a)
    (behind : ∀ c ∈ v, Text.isBlank c = true) : Spaced (lexemes (w ++ a ++ v)) [a] := by
  have pieces : lexemes (w ++ a ++ v) = w.map .char ++ lexemes a ++ v.map .char := by
    have quoteless := quote_not_mem_blanks behind
    rw [List.append_assoc, lexemes_append (quote_not_mem_blanks before), List.append_assoc,
      ← lexemes_quoteless quoteless]
    cases v with
    | nil => simp
    | cons c v => rw [closed c v (quote_ne_of_isBlank (behind c (by simp)))]
  rw [pieces]
  exact .last before behind

theorem spaced_next {w a rest : List Char} {as : List (List Char)} (before : ∀ c ∈ w, Text.isBlank c = true)
    (closed : Closed a) (others : Spaced (lexemes rest) as) : Spaced (lexemes (w ++ a ++ ',' :: rest)) (a :: as) := by
  rw [List.append_assoc, lexemes_append (quote_not_mem_blanks before), closed.lexemes_append_cons (by decide),
    ← List.append_assoc]
  exact .next before others

/-- The parts of a term on one line: a blank stands before each but the first. -/
theorem spaced_charsList : ∀ {ts : List Term} {w : List Char}, ts ≠ [] → (∀ c ∈ w, Text.isBlank c = true) →
    namesAllIn (fun n => !n.toList.contains Atom.quote) ts = true →
      Spaced (lexemes (w ++ charsList ts)) (ts.map chars)
  | [], _, some?, _, _ => absurd rfl some?
  | [t], w, _, blank, names => by
    simp only [namesAllIn, Bool.and_eq_true] at names
    have last := spaced_last blank (closed_chars t names.1) (v := []) (by simp)
    rw [charsList_singleton]
    simpa using last
  | t :: u :: us, w, _, blank, names => by
    rw [namesAllIn, Bool.and_eq_true] at names
    have others := spaced_charsList (List.cons_ne_nil u us) isBlank_space names.2
    rw [charsList_cons_cons, ← List.append_assoc]
    exact spaced_next blank (closed_chars t names.1) others

/-- The parts of a term on several lines: a line feed and the indentation stand before each, and blanks behind the
last. -/
theorem spaced_layoutLines {unit : List Char} (blank : ∀ c ∈ unit, Text.isBlank c = true) {v : List Char}
    (behind : ∀ c ∈ v, Text.isBlank c = true) (level : Nat) : ∀ {ts : List Term}, ts ≠ [] →
    namesAllIn (fun n => !n.toList.contains Atom.quote) ts = true →
      Spaced (lexemes ('\n' :: layoutLines unit level ts ++ v)) (ts.map fun t => t.layout unit level)
  | [], some?, _ => absurd rfl some?
  | [t], _, names => by
    simp only [namesAllIn, Bool.and_eq_true] at names
    have before : ∀ c ∈ '\n' :: indentation unit level, Text.isBlank c = true :=
      List.forall_mem_cons.2 ⟨by decide, isBlank_indentation blank level⟩
    have last := spaced_last before (alike_layout blank t level names.1).left
      (v := '\n' :: v) (List.forall_mem_cons.2 ⟨by decide, behind⟩)
    simpa [layoutLines] using last
  | t :: u :: us, _, names => by
    rw [namesAllIn, Bool.and_eq_true] at names
    have before : ∀ c ∈ '\n' :: indentation unit level, Text.isBlank c = true :=
      List.forall_mem_cons.2 ⟨by decide, isBlank_indentation blank level⟩
    have others := spaced_layoutLines blank behind level (List.cons_ne_nil u us) names.2
    have next := spaced_next before (alike_layout blank t level names.1).left others
    simpa [layoutLines] using next

theorem spaced_inside {style : Style} (blank : style.IsBlank) {ts : List Term} (some? : ts ≠ [])
    (names : namesAllIn (fun n => !n.toList.contains Atom.quote) ts = true) :
    Spaced (lexemes (inside style ts)) (ts.map (ownText style)) := by
  cases style with
  | oneLine => exact spaced_charsList some? (w := []) (by simp) names
  | indented unit =>
    simp only [inside]
    split
    · next small =>
      have same : ts.map (ownText (.indented unit)) = ts.map chars :=
        List.map_congr_left fun t there => layout_of_isSmall (List.all_eq_true.1 small t there) unit.toList 1
      rw [same]
      exact spaced_charsList some? (w := []) (by simp) names
    · exact spaced_layoutLines blank (isBlank_indentation blank 0) 1 some? names

end Term

/-! ## Facts -/

/-- What a scan finds in a fact of the given name, `inner` being what stands between its outermost brackets. -/
structure Outline (ls : List Lexeme) (name : String) (inner : List Lexeme) : Prop where
  parts : ls = name.toList.map .char ++ .char '(' :: inner ++ [.char ')', .char '.']
  /-- The scan ends outside of quotes. -/
  closed : ∀ body, .unclosed body ∉ ls
  /-- No bracket is open at the last piece but one. -/
  returns : depth ls.dropLast = 0
  /-- From the first bracket on, one is open at all pieces before that. -/
  first : ∀ p q, ls = p ++ q → (∃ l ∈ p, l.rise ≠ 0) → 1 < q.length → 0 < depth p
  /-- The last piece is the only period. -/
  period : ls.count (.char '.') = 1

/-- From its first bracket on, a fact has one open up to the last piece but one. -/
theorem depth_pos_of_balanced {head inner p q : List Lexeme} (flat : ∀ l ∈ head, l.rise = 0)
    (balanced : Balanced inner) (cut : head ++ .char '(' :: inner ++ [.char ')', .char '.'] = p ++ q)
    (bracket : ∃ l ∈ p, l.rise ≠ 0) (length : 1 < q.length) : 0 < depth p := by
  obtain ⟨l, there, risen⟩ := bracket
  rw [List.append_assoc] at cut
  rcases List.append_eq_append_iff.1 cut with ⟨m, rfl, rest⟩ | ⟨m, rfl, -⟩
  · cases m with
    | nil =>
      rw [List.append_nil] at there
      exact absurd (flat l there) risen
    | cons k m =>
      simp only [List.cons_append, List.cons.injEq] at rest
      obtain ⟨rfl, rest⟩ := rest
      have below : 0 ≤ depth m := by
        rcases List.append_eq_append_iff.1 rest with ⟨r, rfl, tail⟩ | ⟨r, rfl, -⟩
        · -- Two pieces are left at least, and there are no more than two behind what is inside.
          have sizes := congrArg List.length tail
          have none : r = [] := by
            apply List.eq_nil_of_length_eq_zero
            simp at sizes
            omega
          simp [none, balanced.level]
        · exact balanced.above m r rfl
      have opened : (Lexeme.char '(').rise = 1 := by decide
      rw [depth_append, depth_of_rise flat, depth_cons, opened]
      omega
  · exact absurd (flat l (by simp [there])) risen

theorem Outline.of_balanced {name : String} {inner : List Lexeme} (named : Atom.isIdentifier name.toList = true)
    (balanced : Balanced inner) :
    Outline (name.toList.map .char ++ .char '(' :: inner ++ [.char ')', .char '.']) name inner := by
  have flat := Term.isFlat_identifier named
  have whole := Whole.flat_append flat
    (balanced.enclosed (o := '(') (c := ')') (by decide) (by decide) (by decide))
  have concat : name.toList.map Lexeme.char ++ .char '(' :: inner ++ [.char ')', .char '.'] =
      (name.toList.map Lexeme.char ++ (.char '(' :: inner ++ [.char ')'])) ++ [.char '.'] := by simp
  refine ⟨rfl, ?_, ?_, ?_, ?_⟩
  · intro body there
    rw [concat, List.mem_append, List.mem_singleton] at there
    rcases there with there | there
    · exact absurd (whole.inner _ there) Bool.false_ne_true
    · cases there
  · rw [concat, List.dropLast_concat]
    exact whole.level
  · intro p q cut
    have level : ∀ l ∈ name.toList.map Lexeme.char, l.rise = 0 := fun l there =>
      Lexeme.rise_of_isFlat (flat l there)
    exact depth_pos_of_balanced level balanced cut
  · have none : .char '.' ∉ name.toList.map Lexeme.char ++ (.char '(' :: inner ++ [.char ')']) := fun there =>
      absurd (whole.inner _ there) Bool.false_ne_true
    rw [concat, List.count_append, List.count_eq_zero.2 none, List.count_singleton_self]

/-- **What a scan finds in a fact.** Of a fact whose compounds are named by identifiers, on one line or on several, with
whatever blanks indent them: a scan outside of quoted atoms finds its outermost brackets, the last of which is the last
character but one, and the period behind it; and the segments between the commas at which no other bracket is open are,
trimmed, the texts of the arguments. -/
theorem Term.render_outline {style : Style} (blank : style.IsBlank) {n : String} {ts : List Term}
    (named : (Term.compound n ts).isWellNamed = true) :
    ∃ inner, Outline (lexemes ((Term.compound n ts).render style).toList) n inner ∧
      (segments inner).map trimmed = ts.map (ownText style) := by
  have quoteless := isQuoteless_of_isWellNamed named
  simp only [isQuoteless, isWellNamed, namesAll, Bool.and_eq_true] at quoteless named
  have alike := alike_inside blank quoteless.2
  have balanced : Balanced (lexemes (inside style ts)) := by
    have oneLine := balanced_filter_iff.2 (balanced_charsList ts named.2)
    have same := alike.same
    rw [visible, visible] at same
    rw [← same] at oneLine
    exact balanced_filter_iff.1 oneLine
  refine ⟨lexemes (inside style ts), ?_, ?_⟩
  · have name := Atom.quote_not_mem_identifier named.1
    have pieces : lexemes ((Term.compound n ts).render style).toList =
        n.toList.map .char ++ .char '(' :: lexemes (inside style ts) ++ [.char ')', .char '.'] := by
      rw [toList_render_compound, List.append_assoc, lexemes_append name, List.cons_append,
        lexemes_cons (by decide), alike.left.lexemes_append_cons (by decide), List.append_assoc]
      rfl
    rw [pieces]
    exact .of_balanced named.1 balanced
  · by_cases some? : ts = []
    · subst some?
      cases style <;> rfl
    · apply (spaced_inside blank some? quoteless.2).segments
      intro a there
      obtain ⟨t, member, rfl⟩ := List.mem_map.1 there
      have wellNamed : t.isWellNamed = true := by
        rw [namesAllIn_eq_all] at named
        exact List.all_eq_true.1 named.2 t member
      exact ⟨whole_ownText blank wellNamed, tight_ownText style wellNamed⟩

/-- Commas, brackets, periods and quotes in atoms, and an argument over several lines. -/
theorem Term.render_outline_nested :
    let ts : List Term := [.atom "a, (b).", .list [.list [], .atom "')'"], .compound "g" []]
    ((Style.indented "  ").IsBlank ∧ (Term.compound "f" ts).isWellNamed = true) ∧
      ∃ inner, Outline (lexemes ((Term.compound "f" ts).render (.indented "  ")).toList) "f" inner ∧
        (segments inner).map trimmed = ["'a, (b).'".toList, "[\n    [],\n    ''')'''\n  ]".toList, "g()".toList] := by
  intro ts
  have blank : (Style.indented "  ").IsBlank := List.all_eq_true.1 rfl
  have named : (Term.compound "f" ts).isWellNamed = true := by decide
  have texts : ts.map (ownText (.indented "  ")) =
      ["'a, (b).'".toList, "[\n    [],\n    ''')'''\n  ]".toList, "g()".toList] := by decide
  exact ⟨⟨blank, named⟩, texts ▸ render_outline blank named⟩

end ProgramFacts
