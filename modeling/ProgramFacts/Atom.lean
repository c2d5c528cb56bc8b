/-!
# Atoms

An atom is written plain if it is a lower-case identifier and no reserved word. Any other text is written
between quotes, and a quote inside it twice.
-/

namespace ProgramFacts.Atom

/-- The character that encloses a quoted atom. -/
def quote : Char := '\x27'

/-- Words that are never written plain. -/
def reserved : List (List Char) := ["true".toList, "false".toList, "null".toList]

/-- Letters, digits and the underscore, of the ASCII characters. -/
def isWordChar (c : Char) : Bool := c.isLower || c.isUpper || c.isDigit || c == '_'

/-- A lower-case letter followed by letters, digits and underscores. -/
def isIdentifier : List Char → Bool
  | [] => false
  | c :: cs => c.isLower && cs.all isWordChar

/-- Whether a text is written without quotes. -/
def isPlain (cs : List Char) : Bool := isIdentifier cs && !reserved.contains cs

/-- The text with every quote written twice. -/
def double : List Char → List Char
  | [] => []
  | c :: cs => if c = quote then quote :: quote :: double cs else c :: double cs

/-- The text with every pair of quotes, from the left, written once. -/
def undouble : List Char → List Char
  | [] => []
  | [c] => [c]
  | c :: d :: cs => if c = quote ∧ d = quote then quote :: undouble cs else c :: undouble (d :: cs)

/-- The written form of an atom. -/
def encode (cs : List Char) : List Char :=
  let escaped := double cs
  if isPlain escaped then escaped else quote :: escaped ++ [quote]

theorem quote_not_wordChar : isWordChar quote = false := by decide

theorem isWordChar_of_isLower {c : Char} (lower : c.isLower = true) : isWordChar c = true := by
  simp [isWordChar, lower]

theorem isWordChar_of_mem {cs : List Char} (word : isIdentifier cs = true) {c : Char} (member : c ∈ cs) :
    isWordChar c = true := by
  cases cs with
  | nil => exact absurd member List.not_mem_nil
  | cons d rest =>
    rw [isIdentifier, Bool.and_eq_true, List.all_eq_true] at word
    rcases List.mem_cons.1 member with rfl | later
    · exact isWordChar_of_isLower word.1
    · exact word.2 c later

theorem quote_not_mem_identifier {cs : List Char} (word : isIdentifier cs = true) : quote ∉ cs := by
  intro member
  have impossible := isWordChar_of_mem word member
  rw [quote_not_wordChar] at impossible
  exact Bool.noConfusion impossible

theorem double_of_quoteless {cs : List Char} (quoteless : quote ∉ cs) : double cs = cs := by
  induction cs with
  | nil => rfl
  | cons c cs ih =>
    rw [List.mem_cons, not_or] at quoteless
    rw [double, if_neg (Ne.symm quoteless.1), ih quoteless.2]

theorem quote_mem_double {cs : List Char} (member : quote ∈ cs) : quote ∈ double cs := by
  induction cs with
  | nil => cases member
  | cons c cs ih =>
    rw [double]
    split
    · exact List.mem_cons_self
    · next other =>
      rcases List.mem_cons.1 member with here | later
      · exact absurd here.symm other
      · exact List.mem_cons_of_mem _ (ih later)

/-- Quotes are doubled in what is no identifier anyway, so it does not matter which of the two texts is looked at. -/
theorem isPlain_double (cs : List Char) : isPlain (double cs) = isPlain cs := by
  by_cases member : quote ∈ cs
  · have other : isIdentifier cs = false :=
      Bool.eq_false_iff.2 fun word => quote_not_mem_identifier word member
    have other' : isIdentifier (double cs) = false :=
      Bool.eq_false_iff.2 fun word => quote_not_mem_identifier word (quote_mem_double member)
    rw [isPlain, isPlain, other, other', Bool.false_and, Bool.false_and]
  · rw [double_of_quoteless member]

/-- A plain text is its own written form. -/
theorem encode_eq (cs : List Char) : encode cs = if isPlain cs then cs else quote :: double cs ++ [quote] := by
  rw [encode, isPlain_double]
  split
  · next plain =>
    rw [isPlain, Bool.and_eq_true] at plain
    exact double_of_quoteless (quote_not_mem_identifier plain.1)
  · rfl

/-- What stands between a quote at the start and a quote at the end, if both are there. -/
def enclosed? : List Char → Option (List Char)
  | [] => none
  | [_] => none
  | c :: d :: cs => if c = quote ∧ (d :: cs).getLast? = some quote then some (d :: cs).dropLast else none

/-- The atom of a written form; a text that is not in quotes stands for itself. -/
def decode (cs : List Char) : List Char :=
  match enclosed? cs with
  | some body => undouble body
  | none => cs

end ProgramFacts.Atom
