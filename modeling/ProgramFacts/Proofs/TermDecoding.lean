import ProgramFacts.Proofs.Lexemes

/-!
# Reading terms back

A decoder for one-line terms. It goes over the pieces of a text once, from the left, with the compounds and lists
that are open on a stack. What it does with the text of a term does not depend on the stack below, which is what
the induction over terms needs; the only thing it must see beyond an atom is the character that ends it.
-/

namespace ProgramFacts.Term

namespace Decoder

/-- A compound or a list that is open. -/
structure Frame where
  /-- The name of a compound; a list has none. -/
  name? : Option String
  parts : List Term := []

namespace Frame

/-- The whole term, if the character is the bracket that closes it. -/
def close (f : Frame) (c : Char) : Option Term :=
  match f.name? with
  | some n => if c = ')' then some (.compound n f.parts) else none
  | none => if c = ']' then some (.list f.parts) else none

def add (f : Frame) (t : Term) : Frame := { f with parts := f.parts ++ [t] }

end Frame

/-- What the decoder is at. -/
inductive Focus
  /-- A term begins here, or an empty bracket ends. -/
  | start
  /-- A word, which is an atom unless a bracket follows. -/
  | word (cs : List Char)
  /-- The end of a term. -/
  | behind (t : Term)
  /-- A comma, before its blank. -/
  | comma

/-- The term that ends here, if nothing makes it longer. -/
def Focus.term? : Focus → Option Term
  | .word cs => some (.atom (String.ofList cs))
  | .behind t => some t
  | _ => none

structure State where
  focus : Focus
  frames : List Frame

/-- The innermost frame gets a part, and goes on behind a comma or is closed. -/
def endPart (t : Term) (c : Char) : List Frame → Option State
  | [] => none
  | f :: fs => if c = ',' then some ⟨.comma, f.add t :: fs⟩ else ((f.add t).close c).map fun u => ⟨.behind u, fs⟩

/-- An empty frame is closed. -/
def endEmpty (c : Char) : List Frame → Option State
  | [] => none
  | f :: fs => if f.parts.isEmpty then (f.close c).map fun u => ⟨.behind u, fs⟩ else none

def step (s : State) (l : Lexeme) : Option State :=
  match s.focus, l with
  | .start, .quoted body => some ⟨.behind (.atom (String.ofList (Atom.undouble body))), s.frames⟩
  | .start, .char c =>
    if c = '[' then some ⟨.start, ⟨none, []⟩ :: s.frames⟩
    else if Atom.isWordChar c then some ⟨.word [c], s.frames⟩
    else endEmpty c s.frames
  | .word cs, .char c =>
    if Atom.isWordChar c then some ⟨.word (cs ++ [c]), s.frames⟩
    else if c = '(' then some ⟨.start, ⟨some (String.ofList cs), []⟩ :: s.frames⟩
    else endPart (.atom (String.ofList cs)) c s.frames
  | .behind t, .char c => endPart t c s.frames
  | .comma, .char c => if c = ' ' then some ⟨.start, s.frames⟩ else none
  | _, _ => none

def run (s : State) (ls : List Lexeme) : Option State := ls.foldlM step s

/-- The term that has been read, if nothing is left open. -/
def finish (s : State) : Option Term := if s.frames.isEmpty then s.focus.term? else none

theorem run_append (s : State) (a b : List Lexeme) : run s (a ++ b) = (run s a).bind fun s => run s b :=
  List.foldlM_append

@[simp] theorem run_nil (s : State) : run s [] = some s := rfl

theorem run_cons (s : State) (l : Lexeme) (ls : List Lexeme) :
    run s (l :: ls) = (step s l).bind fun s => run s ls :=
  List.foldlM_cons

end Decoder

/-- The term that a text is the one-line form of. -/
def decode (s : String) : Option Term := (Decoder.run ⟨.start, []⟩ (lexemes s.toList)).bind Decoder.finish

namespace Decoder

/-- Runs over `a` from the start of a term to the end of `t`, whatever is open. -/
def Reads (a : List Lexeme) (t : Term) : Prop :=
  ∀ frames, ∃ f : Focus, f.term? = some t ∧ run ⟨.start, frames⟩ a = some ⟨f, frames⟩

/-- Behind a term the words and the brackets are alike to a character that ends it. -/
theorem step_end {f : Focus} {t : Term} (done : f.term? = some t) (frames : List Frame) {c : Char}
    (ends : Atom.isWordChar c = false) (bracket : c ≠ '(') : step ⟨f, frames⟩ (.char c) = endPart t c frames := by
  cases f with
  | start => simp [Focus.term?] at done
  | comma => simp [Focus.term?] at done
  | behind u =>
    obtain rfl : u = t := by simpa [Focus.term?] using done
    rfl
  | word cs =>
    obtain rfl : .atom (String.ofList cs) = t := by simpa [Focus.term?] using done
    simp [step, ends, bracket]

theorem run_word (cs rest : List Char) (frames : List Frame) (word : ∀ c ∈ rest, Atom.isWordChar c = true) :
    run ⟨.word cs, frames⟩ (rest.map .char) = some ⟨.word (cs ++ rest), frames⟩ := by
  induction rest generalizing cs with
  | nil => simp
  | cons c rest ih =>
    have here : Atom.isWordChar c = true := word c (by simp)
    have first : step ⟨.word cs, frames⟩ (.char c) = some ⟨.word (cs ++ [c]), frames⟩ := by
      simp [step, here]
    rw [List.map_cons, run_cons, first, Option.bind_some, ih _ fun d hd => word d (by simp [hd])]
    simp

/-- From the start of a term over an identifier. -/
theorem run_identifier {cs : List Char} (word : Atom.isIdentifier cs = true) (frames : List Frame) :
    run ⟨.start, frames⟩ (cs.map .char) = some ⟨.word cs, frames⟩ := by
  cases cs with
  | nil => simp [Atom.isIdentifier] at word
  | cons c rest =>
    have all : ∀ d ∈ c :: rest, Atom.isWordChar d = true := fun d hd => Atom.isWordChar_of_mem word hd
    have here : Atom.isWordChar c = true := all c (by simp)
    have bracket : c ≠ '[' := by
      rintro rfl
      exact absurd here (by decide)
    have first : step ⟨.start, frames⟩ (.char c) = some ⟨.word [c], frames⟩ := by
      simp [step, bracket, here]
    rw [List.map_cons, run_cons, first, Option.bind_some, run_word _ _ _ fun d hd => all d (by simp [hd])]
    rfl

theorem reads_atom (v : String) : Reads (lexemes (chars (.atom v))) (.atom v) := by
  intro frames
  rw [lexemes_atom]
  by_cases plain : Atom.isPlain v.toList = true
  · rw [if_pos plain, run_identifier (Atom.isIdentifier_of_isPlain plain)]
    exact ⟨_, by simp [Focus.term?], rfl⟩
  · rw [if_neg plain]
    refine ⟨.behind (.atom v), rfl, ?_⟩
    simp [run_cons, step, Atom.undouble_double]

theorem close_char {f : Frame} {c : Char} {u : Term} (closed : f.close c = some u) : c = ')' ∨ c = ']' := by
  unfold Frame.close at closed
  split at closed
  · split at closed
    · next here => exact Or.inl here
    · cases closed
  · split at closed
    · next here => exact Or.inr here
    · cases closed

/-- Closing brackets end a term, and begin none. -/
theorem closing_ends {c : Char} (closing : c = ')' ∨ c = ']') :
    Atom.isWordChar c = false ∧ c ≠ '(' ∧ c ≠ '[' ∧ c ≠ ',' := by
  rcases closing with rfl | rfl <;> decide

/-- The frame with several more parts. -/
def Frame.addAll (f : Frame) (ts : List Term) : Frame := { f with parts := f.parts ++ ts }

theorem addAll_cons (f : Frame) (t : Term) (ts : List Term) : f.addAll (t :: ts) = (f.add t).addAll ts := by
  simp [Frame.addAll, Frame.add]

/-- A compound's or a list's brackets, with nothing between them. -/
theorem run_empty {f : Frame} {c : Char} {u : Term} (empty : f.parts = []) (closed : f.close c = some u)
    (fs : List Frame) : run ⟨.start, f :: fs⟩ [.char c] = some ⟨.behind u, fs⟩ := by
  obtain ⟨word, -, bracket, -⟩ := closing_ends (close_char closed)
  simp [run_cons, step, endEmpty, word, bracket, empty, closed]

/-- The last part and the bracket behind it. -/
theorem run_last {f : Frame} {a : List Lexeme} {t u : Term} {c : Char} (part : Reads a t)
    (closed : (f.add t).close c = some u) (fs : List Frame) :
    run ⟨.start, f :: fs⟩ (a ++ [.char c]) = some ⟨.behind u, fs⟩ := by
  obtain ⟨word, bracket, -, comma⟩ := closing_ends (close_char closed)
  obtain ⟨focus, done, read⟩ := part (f :: fs)
  rw [run_append, read, Option.bind_some, run_cons, step_end done _ word bracket]
  simp [endPart, comma, closed]

/-- A part with a comma behind it. -/
theorem run_part {f : Frame} {a : List Lexeme} {t : Term} (part : Reads a t) (fs : List Frame)
    (b : List Lexeme) :
    run ⟨.start, f :: fs⟩ (a ++ .char ',' :: .char ' ' :: b) = run ⟨.start, f.add t :: fs⟩ b := by
  obtain ⟨focus, done, read⟩ := part (f :: fs)
  have comma : step ⟨focus, f :: fs⟩ (.char ',') = some ⟨.comma, f.add t :: fs⟩ := by
    rw [step_end done _ (by decide) (by decide)]
    rfl
  have blank : step ⟨.comma, f.add t :: fs⟩ (.char ' ') = some ⟨.start, f.add t :: fs⟩ := rfl
  rw [run_append, read, Option.bind_some, run_cons, comma, Option.bind_some, run_cons, blank, Option.bind_some]

mutual

/-- The decoder reads the text of a term to its end, whatever is open around it. -/
theorem reads_chars : ∀ t : Term, t.isWellNamed = true → Reads (lexemes t.chars) t
  | .atom v, _ => reads_atom v
  | .compound n ts, named => by
    intro frames
    have quoteless := isQuoteless_of_isWellNamed named
    simp only [isWellNamed, namesAll, Bool.and_eq_true] at named
    have opened : step ⟨.word n.toList, frames⟩ (.char '(') = some ⟨.start, ⟨some n, []⟩ :: frames⟩ := by
      simp [step, show Atom.isWordChar '(' = false by decide]
    have parts := run_charsList ts named.2 ⟨some n, []⟩ ')' (.compound n ts) (Or.inr rfl) rfl frames
    refine ⟨.behind (.compound n ts), rfl, ?_⟩
    rw [lexemes_compound quoteless, List.append_assoc, run_append, run_identifier named.1, Option.bind_some,
      List.cons_append, run_cons, opened, Option.bind_some, parts]
  | .list ts, named => by
    intro frames
    have quoteless := isQuoteless_of_isWellNamed named
    have opened : step ⟨.start, frames⟩ (.char '[') = some ⟨.start, ⟨none, []⟩ :: frames⟩ := rfl
    have parts := run_charsList ts named ⟨none, []⟩ ']' (.list ts) (Or.inr rfl) rfl frames
    refine ⟨.behind (.list ts), rfl, ?_⟩
    rw [lexemes_list quoteless, List.cons_append, run_cons, opened, Option.bind_some, parts]

/-- The parts of an open compound or list, up to the bracket that closes it. Only a frame that has no parts yet
may get none. -/
theorem run_charsList :
    ∀ ts : List Term, namesAllIn (fun n => Atom.isIdentifier n.toList) ts = true →
      ∀ (f : Frame) (c : Char) (u : Term), ts ≠ [] ∨ f.parts = [] → (f.addAll ts).close c = some u →
        ∀ fs, run ⟨.start, f :: fs⟩ (lexemes (charsList ts) ++ [.char c]) = some ⟨.behind u, fs⟩
  | [], _ => by
    intro f c u some? closed fs
    have empty : f.parts = [] := some?.resolve_left fun h => h rfl
    have same : f.addAll [] = f := by simp [Frame.addAll]
    rw [same] at closed
    exact run_empty empty closed fs
  | [t], named => by
    intro f c u _ closed fs
    simp only [namesAllIn, Bool.and_eq_true] at named
    rw [charsList_singleton]
    exact run_last (reads_chars t named.1) closed fs
  | t :: t' :: ts, named => by
    intro f c u _ closed fs
    rw [namesAllIn, Bool.and_eq_true] at named
    rw [addAll_cons] at closed
    rw [lexemes_charsList_cons_cons (isQuoteless_of_isWellNamed named.1), List.append_assoc, List.cons_append,
      List.cons_append, run_part (reads_chars t named.1)]
    exact run_charsList (t' :: ts) named.2 (f.add t) c u (Or.inl (List.cons_ne_nil _ _)) closed fs

end

end Decoder

/-- The text of a well-named term is read back as that term. -/
theorem decode_encode {t : Term} (named : t.isWellNamed = true) : decode t.encode = some t := by
  obtain ⟨focus, done, read⟩ := Decoder.reads_chars t named []
  rw [decode, encode, String.toList_ofList, read, Option.bind_some]
  simpa [Decoder.finish] using done

/-! ## Texts of different shapes -/

/-- Atoms end in a quote or in a word character. -/
theorem getLast?_encode_atom (cs : List Char) :
    ∃ c, (Atom.encode cs).getLast? = some c ∧ (c = Atom.quote ∨ Atom.isWordChar c = true) := by
  by_cases plain : Atom.isPlain cs = true
  · have word := Atom.isIdentifier_of_isPlain plain
    have some? : cs ≠ [] := by
      rintro rfl
      simp [Atom.isIdentifier] at word
    rw [Atom.encode_eq, if_pos plain, List.getLast?_eq_some_getLast some?]
    exact ⟨_, rfl, Or.inr (Atom.isWordChar_of_mem word (List.getLast_mem some?))⟩
  · rw [Atom.encode_eq, if_neg plain, List.getLast?_concat]
    exact ⟨_, rfl, Or.inl rfl⟩

theorem getLast?_encode_compound (n : String) (ts : List Term) :
    (Term.compound n ts).encode.toList.getLast? = some ')' := by
  rw [encode, String.toList_ofList, chars, List.getLast?_concat]

theorem getLast?_encode_list (ts : List Term) : (Term.list ts).encode.toList.getLast? = some ']' := by
  rw [encode, String.toList_ofList, chars, List.getLast?_concat]

/-- No atom has the text of a compound or of a list. -/
theorem encode_atom_ne (v : String) {u : Term} {c : Char} (last : u.encode.toList.getLast? = some c)
    (closing : c = ')' ∨ c = ']') : (Term.atom v).encode ≠ u.encode := by
  intro same
  obtain ⟨d, ends, kind⟩ := getLast?_encode_atom v.toList
  rw [← same, encode, String.toList_ofList, chars, ends, Option.some.injEq] at last
  subst last
  rcases closing with rfl | rfl <;> exact absurd kind (by decide)

/-- **One-line texts are unambiguous.** Every well-named term is read back from its text, so that two of them never
share one; and whatever the names are, an atom, a compound without arguments and a list never share one. -/
theorem encode_unambiguous :
    (∀ t : Term, t.isWellNamed = true → decode t.encode = some t) ∧
    (∀ t u : Term, t.isWellNamed = true → u.isWellNamed = true → t.encode = u.encode → t = u) ∧
    (∀ (v n : String) (ts : List Term), (Term.atom v).encode ≠ (Term.compound n []).encode ∧
      (Term.atom v).encode ≠ (Term.list ts).encode ∧ (Term.compound n []).encode ≠ (Term.list ts).encode) := by
  refine ⟨fun t named => decode_encode named, fun t u ht hu same => ?_, fun v n ts => ⟨?_, ?_, ?_⟩⟩
  · have read := decode_encode ht
    rw [same, decode_encode hu] at read
    exact (Option.some.inj read).symm
  · exact encode_atom_ne v (getLast?_encode_compound n []) (Or.inl rfl)
  · exact encode_atom_ne v (getLast?_encode_list ts) (Or.inr rfl)
  · intro same
    have last := getLast?_encode_compound n []
    rw [same, getLast?_encode_list] at last
    exact absurd last (by decide)

/-- A term with a quote, a comma, a bracket and a line feed in its atoms, a reserved word both as a name and as an
atom, and empty brackets of both kinds. -/
theorem encode_unambiguous_nested :
    let t : Term := .compound "null"
      [.atom "it's), [", .list [.atom "", .list [], .compound "f" []], .atom "true\n", .atom "null"]
    t.isWellNamed = true ∧ decode t.encode = some t :=
  ⟨by decide, encode_unambiguous.1 _ (by decide)⟩

end ProgramFacts.Term
