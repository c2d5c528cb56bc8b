/-!
# Cutting and joining texts
-/

namespace ProgramFacts.Text

/-- The pieces of a text between the occurrences of a separator; one more than there are separators. -/
def split (separator : Char) : List Char → List (List Char)
  | [] => [[]]
  | c :: cs =>
    if c = separator then [] :: split separator cs
    else match split separator cs with
      | [] => [[c]]
      | p :: ps => (c :: p) :: ps

theorem split_ne_nil (separator : Char) (cs : List Char) : split separator cs ≠ [] := by
  cases cs with
  | nil => simp [split]
  | cons c cs => simp only [split]; split <;> (try split) <;> simp

theorem split_of_not_mem {separator : Char} {cs : List Char} (absent : separator ∉ cs) : split separator cs = [cs] := by
  induction cs with
  | nil => rfl
  | cons c cs ih =>
    obtain ⟨first, others⟩ := not_or.1 (fun h => absent (List.mem_cons.2 h))
    rw [split, if_neg (Ne.symm first), ih others]

/-- A separator ends the piece before it. -/
theorem split_append_cons {separator : Char} {cs : List Char} (absent : separator ∉ cs) (more : List Char) :
    split separator (cs ++ separator :: more) = cs :: split separator more := by
  induction cs with
  | nil => simp [split]
  | cons c cs ih =>
    obtain ⟨first, others⟩ := not_or.1 (fun h => absent (List.mem_cons.2 h))
    rw [List.cons_append, split, if_neg (Ne.symm first), ih others]

/-- The pieces with the separator put back between them. -/
def join (separator : Char) (pieces : List (List Char)) : List Char := List.intercalate [separator] pieces

theorem join_cons_of_ne_nil (separator : Char) (p : List Char) {ps : List (List Char)} (h : ps ≠ []) :
    join separator (p :: ps) = p ++ separator :: join separator ps := by
  cases ps with
  | nil => exact absurd rfl h
  | cons q qs => simp [join, List.intercalate]

/-- Nothing is lost by cutting. -/
theorem join_split (separator : Char) (cs : List Char) : join separator (split separator cs) = cs := by
  induction cs with
  | nil => simp [split, join, List.intercalate]
  | cons c cs ih =>
    simp only [split]
    split
    · next h => rw [join_cons_of_ne_nil _ _ (split_ne_nil _ _), ih, h]; rfl
    · split
      · next h => exact absurd h (split_ne_nil _ _)
      · next p ps h =>
        rw [h] at ih
        rw [← ih]
        cases ps <;> simp [join, List.intercalate]

/-- Pieces without separators are what their join is cut into. -/
theorem split_join {separator : Char} {pieces : List (List Char)} (absent : ∀ p ∈ pieces, separator ∉ p)
    (some? : pieces ≠ []) : split separator (join separator pieces) = pieces := by
  induction pieces with
  | nil => exact absurd rfl some?
  | cons p ps ih =>
    have first := absent p (by simp)
    by_cases last : ps = []
    · subst last
      simpa [join] using split_of_not_mem first
    · rw [join_cons_of_ne_nil separator p last, split_append_cons first,
        ih (fun q there => absent q (by simp [there])) last]

/-- Pieces that end in a separator each, but for the separator at the end. -/
theorem flatMap_concat (separator : Char) {pieces : List (List Char)} (some? : pieces ≠ []) :
    (pieces.flatMap fun p => p ++ [separator]) = join separator pieces ++ [separator] := by
  induction pieces with
  | nil => exact absurd rfl some?
  | cons p ps ih =>
    by_cases last : ps = []
    · subst last
      simp [join]
    · rw [List.flatMap_cons, ih last, join_cons_of_ne_nil separator p last]
      simp

/-- Texts joined by a separating text. -/
def joinWith (separator : String) (pieces : List String) : String :=
  String.ofList (List.intercalate separator.toList (pieces.map String.toList))

/-- The text without the characters of a class at its end. -/
def trimEnd (p : Char → Bool) (cs : List Char) : List Char := (cs.reverse.dropWhile p).reverse

/-- The text without the characters of a class at either end. -/
def trim (p : Char → Bool) (cs : List Char) : List Char := trimEnd p (cs.dropWhile p)

/-- Carriage returns end a line as line feeds do, alone or in front of one. -/
def unifyLineEnds : List Char → List Char
  | [] => []
  | '\r' :: '\n' :: cs => '\n' :: unifyLineEnds cs
  | '\r' :: cs => '\n' :: unifyLineEnds cs
  | c :: cs => c :: unifyLineEnds cs

end ProgramFacts.Text
