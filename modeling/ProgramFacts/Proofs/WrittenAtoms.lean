import ProgramFacts.Proofs.Lexemes

/-!
# Written atoms

Which texts are written forms of atoms: plain words, and texts between quotes in which quotes stand in maximal runs of
even length only, unless they stand for a plain word. An atom is read back from its written form, and a text is the
written form of what is read from it exactly if it is a written form at all.

A text with even runs either begins with another character than the quote or with two quotes, and has even runs behind
them. The recursions that double quotes and take them away again follow the same two cases.
-/

namespace ProgramFacts.Atom

/-- `n` quotes stand between two parts of a text, and no other quote is next to them. -/
structure IsRun (cs before : List Char) (n : Nat) (behind : List Char) : Prop where
  whole : cs = before ++ List.replicate n quote ++ behind
  left : before.getLast? ≠ some quote
  right : behind.head? ≠ some quote

/-- Every maximal run of quotes has an even length. -/
def EvenRuns (cs : List Char) : Prop := ∀ before n behind, IsRun cs before n behind → n % 2 = 0

theorem evenRuns_nil : EvenRuns [] := by
  intro before n behind run
  have whole := run.whole
  simp at whole
  omega

theorem evenRuns_cons {c : Char} (other : c ≠ quote) {cs : List Char} : EvenRuns (c :: cs) ↔ EvenRuns cs := by
  constructor
  · intro even before n behind run
    refine even (c :: before) n behind ⟨by simp [run.whole], ?_, run.right⟩
    cases before with
    | nil => simpa using other
    | cons d before => simpa using run.left
  · rintro even before n behind ⟨whole, left, right⟩
    cases before with
    | nil =>
      -- A run at the start is empty, since another character is there.
      cases n with
      | zero => rfl
      | succ n => simp [List.replicate_succ, other] at whole
    | cons d before =>
      simp only [List.cons_append, List.cons.injEq] at whole
      refine even before n behind ⟨whole.2, ?_, right⟩
      cases before with
      | nil => simp
      | cons e before => simpa using left

theorem evenRuns_pair {cs : List Char} : EvenRuns (quote :: quote :: cs) ↔ EvenRuns cs := by
  constructor
  · rintro even before n behind ⟨whole, left, right⟩
    cases before with
    | nil =>
      have longer : IsRun (quote :: quote :: cs) [] (n + 2) behind :=
        ⟨by simp [whole, List.replicate_succ], by simp, right⟩
      have := even _ _ _ longer
      omega
    | cons d before =>
      exact even (quote :: quote :: d :: before) n behind ⟨by simp [whole], by simpa using left, right⟩
  · rintro even before n behind ⟨whole, left, right⟩
    match before, n with
    | [], 0 => rfl
    | [], 1 =>
      simp [List.replicate_succ] at whole
      simp [← whole] at right
    | [], n + 2 =>
      simp [List.replicate_succ] at whole
      have := even [] n behind ⟨by simpa using whole, by simp, right⟩
      omega
    | [d], n =>
      simp at whole
      simp [← whole.1] at left
    | d :: e :: before, n =>
      simp at whole
      refine even before n behind ⟨by simpa using whole.2.2, ?_, right⟩
      cases before with
      | nil => simp
      | cons f before => simpa using left

/-- A quote that stands alone at the start is a run of its own. -/
theorem not_evenRuns_lone {cs : List Char} (next : cs.head? ≠ some quote) : ¬EvenRuns (quote :: cs) := by
  intro even
  have := even [] 1 cs ⟨by simp, by simp, next⟩
  omega

theorem evenRuns_double (cs : List Char) : EvenRuns (double cs) := by
  induction cs with
  | nil => exact evenRuns_nil
  | cons c cs ih =>
    unfold double
    split
    · exact evenRuns_pair.2 ih
    · next other => exact (evenRuns_cons other).2 ih

/-- Texts with even runs are those in which every quote is written twice. -/
theorem double_undouble {body : List Char} (even : EvenRuns body) : double (undouble body) = body := by
  fun_induction undouble body with
  | case1 => rfl
  | case2 c =>
    have other : c ≠ quote := by
      rintro rfl
      exact not_evenRuns_lone (by simp) even
    simp [double, other]
  | case3 c d cs both ih =>
    obtain ⟨rfl, rfl⟩ := both
    simp [double, ih (evenRuns_pair.1 even)]
  | case4 c d cs notBoth ih =>
    have other : c ≠ quote := by
      rintro rfl
      exact not_evenRuns_lone (by simpa using fun same => notBoth ⟨rfl, same⟩) even
    simp [double, other, ih ((evenRuns_cons other).1 even)]

theorem evenRuns_iff {body : List Char} : EvenRuns body ↔ double (undouble body) = body := by
  constructor
  · exact double_undouble
  · intro same
    rw [← same]
    exact evenRuns_double _

instance (body : List Char) : Decidable (EvenRuns body) := decidable_of_iff _ evenRuns_iff.symm

/-! ## Reading written forms -/

/-- A plain word, or quotes around a text with even runs that does not stand for a plain word. -/
def IsWritten (t : List Char) : Prop :=
  isPlain t = true ∨ ∃ body, t = quote :: body ++ [quote] ∧ EvenRuns body ∧ isPlain (undouble body) = false

theorem decode_quoted (body : List Char) : decode (quote :: body ++ [quote]) = undouble body := by
  cases body with
  | nil => rfl
  | cons c body =>
    have last : (c :: body ++ [quote]).getLast? = some quote := List.getLast?_concat
    have front : (c :: body ++ [quote]).dropLast = c :: body := List.dropLast_concat
    simp only [List.cons_append] at last front ⊢
    simp [decode, enclosed?, last, front]

theorem decode_plain {t : List Char} (plain : isPlain t = true) : decode t = t := by
  have quoteless := quote_not_mem_identifier (isIdentifier_of_isPlain plain)
  unfold decode enclosed?
  match t with
  | [] => rfl
  | [_] => rfl
  | c :: d :: cs =>
    have other : c ≠ quote := by
      rintro rfl
      simp at quoteless
    simp [other]

theorem decode_encode (cs : List Char) : decode (encode cs) = cs := by
  rw [encode_eq]
  split
  · next plain => exact decode_plain plain
  · rw [decode_quoted, undouble_double]

theorem isWritten_encode (cs : List Char) : IsWritten (encode cs) := by
  by_cases plain : isPlain cs = true
  · rw [encode_eq, if_pos plain]
    exact .inl plain
  · rw [encode_eq, if_neg plain]
    refine .inr ⟨double cs, rfl, evenRuns_double cs, ?_⟩
    rw [undouble_double]
    simpa using plain

theorem encode_decode {t : List Char} (written : IsWritten t) : encode (decode t) = t := by
  rcases written with plain | ⟨body, rfl, even, other⟩
  · rw [decode_plain plain, encode_eq, if_pos plain]
  · rw [decode_quoted, encode_eq, other, if_neg Bool.false_ne_true, double_undouble even]

/-- **Atoms and their written forms.** Every atom is read back from its written form. The written forms are the plain
words and the quoted texts described by `IsWritten`, and these are the texts that reading and writing again leaves as
they are. -/
theorem encode_image (cs t : List Char) :
    decode (encode cs) = cs ∧ ((∃ v, encode v = t) ↔ IsWritten t) ∧ (encode (decode t) = t ↔ IsWritten t) := by
  have image : (∃ v, encode v = t) → IsWritten t := by
    rintro ⟨v, rfl⟩
    exact isWritten_encode v
  refine ⟨decode_encode cs, ⟨image, fun written => ⟨decode t, encode_decode written⟩⟩, ?_⟩
  exact ⟨fun same => image ⟨decode t, same⟩, encode_decode⟩

end ProgramFacts.Atom
