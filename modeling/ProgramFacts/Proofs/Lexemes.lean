import ProgramFacts.Term
import ProgramFacts.Text.Ranges

/-!
# Texts as a reader that knows quotes sees them

A text is cut into single characters and quoted atoms; two quotes within a quoted atom stand for one and do not
end it. Nothing is lost by cutting, so what is said about the pieces is said about the text.

The text of a term is cut at every character outside of its atoms: `Closed` is the property that makes this
work, and it holds of every text that is made of closed texts with characters other than the quote between them.
-/

namespace ProgramFacts

/-- A piece of a text. -/
inductive Lexeme
  | char (c : Char)
  /-- A quoted atom, by what stands between its quotes. -/
  | quoted (body : List Char)
  /-- A quote that is never closed, with what follows it. -/
  | unclosed (body : List Char)
deriving DecidableEq

namespace Lexeme

/-- The piece as it stands in the text. -/
def text : Lexeme → List Char
  | .char c => [c]
  | .quoted body => Atom.quote :: body ++ [Atom.quote]
  | .unclosed body => Atom.quote :: body

/-- Whether the piece is a blank outside of quotes. -/
def isLayout : Lexeme → Bool
  | .char c => Text.isBlank c
  | _ => false

/-- What stands in quotes, if anything does. -/
def body? : Lexeme → Option (List Char)
  | .char _ => none
  | .quoted body => some body
  | .unclosed body => some body

end Lexeme

/-- Where a reader is: in a quoted atom, or not. -/
inductive Quotation
  | outside
  | inside (body : List Char)
  /-- Behind a quote that ends an atom, unless another quote follows. -/
  | behind (body : List Char)

namespace Quotation

/-- The pieces of what is left of a text. -/
def lexemes : Quotation → List Char → List Lexeme
  | .outside, [] => []
  | .inside body, [] => [.unclosed body]
  | .behind body, [] => [.quoted body]
  | .outside, c :: cs =>
    if c = Atom.quote then lexemes (.inside []) cs else .char c :: lexemes .outside cs
  | .inside body, c :: cs =>
    if c = Atom.quote then lexemes (.behind body) cs else lexemes (.inside (body ++ [c])) cs
  | .behind body, c :: cs =>
    if c = Atom.quote then lexemes (.inside (body ++ [Atom.quote, Atom.quote])) cs
    else .quoted body :: .char c :: lexemes .outside cs

/-- What has been read and is in no piece yet. -/
def pending : Quotation → List Char
  | .outside => []
  | .inside body => Atom.quote :: body
  | .behind body => Atom.quote :: body ++ [Atom.quote]

theorem text_lexemes (r : Quotation) (cs : List Char) : (r.lexemes cs).flatMap Lexeme.text = r.pending ++ cs := by
  fun_induction lexemes r cs with
  | case1 => rfl
  | case2 => simp [Lexeme.text, pending]
  | case3 => simp [Lexeme.text, pending]
  | case4 cs ih => simp [ih, pending]
  | case5 c cs other ih => simp [ih, Lexeme.text, pending]
  | case6 body cs ih => simp [ih, pending]
  | case7 body c cs other ih => simp [ih, pending]
  | case8 body cs ih => simp [ih, pending]
  | case9 body c cs other ih => simp [ih, Lexeme.text, pending]

end Quotation

/-- The pieces of a text. -/
def lexemes (cs : List Char) : List Lexeme := Quotation.outside.lexemes cs

/-- Nothing is lost by cutting a text into its pieces. -/
theorem text_lexemes (cs : List Char) : (lexemes cs).flatMap Lexeme.text = cs := Quotation.text_lexemes .outside cs

@[simp] theorem lexemes_nil : lexemes [] = [] := rfl

theorem lexemes_cons {c : Char} (other : c ≠ Atom.quote) (cs : List Char) :
    lexemes (c :: cs) = .char c :: lexemes cs := by
  simp [lexemes, Quotation.lexemes, other]

/-- A text without quotes is cut into its characters. -/
theorem lexemes_append {a : List Char} (quoteless : Atom.quote ∉ a) (b : List Char) :
    lexemes (a ++ b) = a.map .char ++ lexemes b := by
  induction a with
  | nil => rfl
  | cons c a ih =>
    rw [List.mem_cons, not_or] at quoteless
    rw [List.cons_append, lexemes_cons (Ne.symm quoteless.1), ih quoteless.2]
    rfl

theorem lexemes_quoteless {a : List Char} (quoteless : Atom.quote ∉ a) : lexemes a = a.map .char := by
  simpa using lexemes_append quoteless []

/-! ## Atoms -/

namespace Atom

theorem inside_double (body cs rest : List Char) :
    (Quotation.inside body).lexemes (double cs ++ rest) = (Quotation.inside (body ++ double cs)).lexemes rest := by
  induction cs generalizing body with
  | nil => simp [double]
  | cons c cs ih =>
    by_cases here : c = quote
    · simp [double, here, Quotation.lexemes, ih]
    · simp [double, here, Quotation.lexemes, ih]

theorem lexemes_quoted_append (cs rest : List Char) :
    lexemes (quote :: double cs ++ quote :: rest) = (Quotation.behind (double cs)).lexemes rest := by
  have opened : lexemes (quote :: (double cs ++ quote :: rest)) =
      (Quotation.inside []).lexemes (double cs ++ quote :: rest) := by
    simp [lexemes, Quotation.lexemes]
  rw [List.cons_append, opened, inside_double]
  simp [Quotation.lexemes]

/-- Quotes written twice are read back once. -/
theorem undouble_double (cs : List Char) : undouble (double cs) = cs := by
  induction cs with
  | nil => rfl
  | cons c cs ih =>
    by_cases here : c = quote
    · simp [double, here, undouble, ih]
    · rw [double, if_neg here]
      cases rest : double cs with
      | nil =>
        rw [rest] at ih
        rw [← ih]
        rfl
      | cons d ds =>
        rw [undouble, if_neg (fun both => here both.1), ← rest, ih]

theorem mem_double {cs : List Char} {c : Char} (member : c ∈ double cs) : c = quote ∨ c ∈ cs := by
  induction cs with
  | nil => cases member
  | cons d cs ih =>
    by_cases here : d = quote
    · simp [double, here] at member ⊢
      grind
    · simp [double, here] at member ⊢
      grind

/-- A written atom has the characters of its value and quotes. -/
theorem mem_encode {cs : List Char} {c : Char} (member : c ∈ encode cs) : c = quote ∨ c ∈ cs := by
  by_cases plain : isPlain cs = true
  · rw [encode_eq, if_pos plain] at member
    exact .inr member
  · simp only [encode_eq, if_neg plain, List.cons_append, List.mem_cons, List.mem_append, List.not_mem_nil,
      or_false] at member
    rcases member with first | within | last
    · exact .inl first
    · exact mem_double within
    · exact .inl last

theorem isIdentifier_of_isPlain {cs : List Char} (plain : isPlain cs = true) : isIdentifier cs = true := by
  rw [isPlain, Bool.and_eq_true] at plain
  exact plain.1

/-- The pieces of a written atom: its characters if it is plain, or else one quoted piece. -/
theorem lexemes_encode (cs : List Char) :
    lexemes (encode cs) = if isPlain cs then cs.map .char else [.quoted (double cs)] := by
  by_cases plain : isPlain cs = true
  · rw [encode_eq, if_pos plain, if_pos plain]
    exact lexemes_quoteless (quote_not_mem_identifier (isIdentifier_of_isPlain plain))
  · rw [encode_eq, if_neg plain, if_neg plain, lexemes_quoted_append]
    rfl

end Atom

/-! ## Texts that are cut at any character that follows them -/

/-- The pieces of the text do not depend on what follows it, be it no quote. -/
def Closed (a : List Char) : Prop :=
  ∀ (c : Char) (rest : List Char), c ≠ Atom.quote → lexemes (a ++ c :: rest) = lexemes a ++ lexemes (c :: rest)

namespace Closed

theorem quoteless {a : List Char} (h : Atom.quote ∉ a) : Closed a := by
  intro c rest _
  rw [lexemes_append h, lexemes_quoteless h]

theorem atom (cs : List Char) : Closed (Atom.encode cs) := by
  by_cases plain : Atom.isPlain cs = true
  · rw [Atom.encode_eq, if_pos plain]
    exact quoteless (Atom.quote_not_mem_identifier (Atom.isIdentifier_of_isPlain plain))
  · intro c rest other
    rw [Atom.lexemes_encode, if_neg plain, Atom.encode_eq, if_neg plain, List.append_assoc, List.singleton_append,
      Atom.lexemes_quoted_append, lexemes_cons other]
    simp [Quotation.lexemes, other, lexemes]

theorem append_cons {a b : List Char} (ha : Closed a) (hb : Closed b) {c : Char} (other : c ≠ Atom.quote) :
    Closed (a ++ c :: b) := by
  intro d rest hd
  rw [List.append_assoc, List.cons_append, ha c _ other, ha c _ other, lexemes_cons other, lexemes_cons other,
    hb d rest hd, List.append_assoc, List.cons_append]

theorem cons {b : List Char} (hb : Closed b) {c : Char} (other : c ≠ Atom.quote) : Closed (c :: b) := by
  have empty : Closed [] := quoteless (by simp)
  exact empty.append_cons hb other

theorem concat {a : List Char} (ha : Closed a) {c : Char} (other : c ≠ Atom.quote) : Closed (a ++ [c]) :=
  ha.append_cons (quoteless (by simp)) other

/-- Behind characters other than the quote. -/
theorem prepend {w a : List Char} (ha : Closed a) (quoteless : Atom.quote ∉ w) : Closed (w ++ a) := by
  intro c rest other
  rw [List.append_assoc, lexemes_append quoteless, ha c rest other, lexemes_append quoteless, List.append_assoc]

theorem lexemes_append_cons {a : List Char} (ha : Closed a) {c : Char} (other : c ≠ Atom.quote) (b : List Char) :
    lexemes (a ++ c :: b) = lexemes a ++ .char c :: lexemes b := by
  rw [ha c b other, lexemes_cons other]

theorem lexemes_concat {a : List Char} (ha : Closed a) {c : Char} (other : c ≠ Atom.quote) :
    lexemes (a ++ [c]) = lexemes a ++ [.char c] :=
  ha.lexemes_append_cons other []

end Closed

/-! ## Terms -/

namespace Term

/-- The term at a place within a term. -/
def at? (t : Term) : List Nat → Option Term
  | [] => some t
  | i :: place => (t.parts[i]?).bind fun u => u.at? place

mutual

/-- Whether the names of all compounds in a term are as they should be. -/
def namesAll (p : String → Bool) : Term → Bool
  | .atom _ => true
  | .compound n ts => p n && namesAllIn p ts
  | .list ts => namesAllIn p ts

def namesAllIn (p : String → Bool) : List Term → Bool
  | [] => true
  | t :: ts => t.namesAll p && namesAllIn p ts

end

theorem namesAllIn_eq_all (p : String → Bool) (ts : List Term) : namesAllIn p ts = ts.all (namesAll p) := by
  induction ts with
  | nil => rfl
  | cons t ts ih => rw [namesAllIn, ih, List.all_cons]

mutual

theorem namesAll_mono {p q : String → Bool} (weaker : ∀ n, p n = true → q n = true) :
    ∀ t : Term, t.namesAll p = true → t.namesAll q = true
  | .atom _ => fun _ => rfl
  | .compound n ts => by
    simp only [namesAll, Bool.and_eq_true]
    rintro ⟨name, parts⟩
    exact ⟨weaker n name, namesAllIn_mono weaker ts parts⟩
  | .list ts => by
    simp only [namesAll]
    exact namesAllIn_mono weaker ts

theorem namesAllIn_mono {p q : String → Bool} (weaker : ∀ n, p n = true → q n = true) :
    ∀ ts : List Term, namesAllIn p ts = true → namesAllIn q ts = true
  | [] => fun _ => rfl
  | t :: ts => by
    simp only [namesAllIn, Bool.and_eq_true]
    rintro ⟨first, others⟩
    exact ⟨namesAll_mono weaker t first, namesAllIn_mono weaker ts others⟩

end

/-- Whether every compound is named by an identifier. -/
def isWellNamed (t : Term) : Bool := t.namesAll fun n => Atom.isIdentifier n.toList

/-- Whether no compound has a quote in its name. -/
def isQuoteless (t : Term) : Bool := t.namesAll fun n => !n.toList.contains Atom.quote

theorem isQuoteless_of_isWellNamed {t : Term} (named : t.isWellNamed = true) : t.isQuoteless = true := by
  refine namesAll_mono (fun n word => ?_) t named
  simpa using Atom.quote_not_mem_identifier word

theorem charsList_cons_cons (t u : Term) (us : List Term) :
    charsList (t :: u :: us) = t.chars ++ ',' :: ' ' :: charsList (u :: us) := rfl

theorem charsList_singleton (t : Term) : charsList [t] = t.chars := by
  simp [charsList]

mutual

theorem closed_chars : ∀ t : Term, t.isQuoteless = true → Closed t.chars
  | .atom v, _ => Closed.atom v.toList
  | .compound n ts, h => by
    simp only [isQuoteless, namesAll, Bool.and_eq_true] at h
    have name : Atom.quote ∉ n.toList := by simpa using h.1
    have parts := closed_charsList ts h.2
    have opened : Closed (n.toList ++ '(' :: charsList ts) :=
      (Closed.quoteless name).append_cons parts (by decide)
    exact opened.concat (by decide)
  | .list ts, h => by
    have parts := closed_charsList ts h
    exact (parts.cons (by decide)).concat (by decide)

theorem closed_charsList :
    ∀ ts : List Term, namesAllIn (fun n => !n.toList.contains Atom.quote) ts = true → Closed (charsList ts)
  | [], _ => Closed.quoteless (by simp [charsList])
  | [t], h => by
    simp only [namesAllIn, Bool.and_eq_true] at h
    rw [charsList_singleton]
    exact closed_chars t h.1
  | t :: u :: us, h => by
    rw [namesAllIn, Bool.and_eq_true] at h
    rw [charsList_cons_cons]
    exact (closed_chars t h.1).append_cons ((closed_charsList (u :: us) h.2).cons (by decide)) (by decide)

end

/-! The pieces of a written term follow its structure. -/

theorem lexemes_atom (v : String) :
    lexemes (chars (.atom v)) =
      if Atom.isPlain v.toList then v.toList.map .char else [.quoted (Atom.double v.toList)] :=
  Atom.lexemes_encode v.toList

theorem lexemes_compound {n : String} {ts : List Term} (h : (Term.compound n ts).isQuoteless = true) :
    lexemes (chars (.compound n ts)) =
      n.toList.map .char ++ .char '(' :: lexemes (charsList ts) ++ [.char ')'] := by
  simp only [isQuoteless, namesAll, Bool.and_eq_true] at h
  have name : Atom.quote ∉ n.toList := by simpa using h.1
  have opened : Closed (n.toList ++ '(' :: charsList ts) :=
    (Closed.quoteless name).append_cons (closed_charsList ts h.2) (by decide)
  rw [chars, opened.lexemes_concat (by decide), (Closed.quoteless name).lexemes_append_cons (by decide),
    lexemes_quoteless name]

theorem lexemes_list {ts : List Term} (h : (Term.list ts).isQuoteless = true) :
    lexemes (chars (.list ts)) = .char '[' :: lexemes (charsList ts) ++ [.char ']'] := by
  have opened : Closed ('[' :: charsList ts) := (closed_charsList ts h).cons (by decide)
  rw [chars, opened.lexemes_concat (by decide), lexemes_cons (by decide)]

theorem lexemes_charsList_cons_cons {t u : Term} {us : List Term} (h : t.isQuoteless = true) :
    lexemes (charsList (t :: u :: us)) =
      lexemes t.chars ++ .char ',' :: .char ' ' :: lexemes (charsList (u :: us)) := by
  rw [charsList_cons_cons, (closed_chars t h).lexemes_append_cons (by decide), lexemes_cons (by decide)]

end Term

end ProgramFacts
