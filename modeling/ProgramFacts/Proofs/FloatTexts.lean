import ProgramFacts.Numeral.Reading
import ProgramFacts.Proofs.ShortestDecimals
import ProgramFacts.Proofs.ValueTerms

/-!
# What the texts of floating-point numbers denote

A reader of decimals takes the text of a number apart again: sign, digits on both sides of the point, exponent. From the
text of a number in a fact and from that in a message it gets the same number, the shortest decimal that rounds to it.
Facts have it without an exponent from a thousandth up to ten million, and otherwise with one digit in front of the
point and an exponent that is written as short as can be.
-/

namespace ProgramFacts.Numeral

/-! ## Reading decimals -/

/-- The digits behind a point, if there is one, and the rest. -/
def spanFraction : List Char → List Nat × List Char
  | '.' :: cs => spanDigits cs
  | cs => ([], cs)

/-- The decimal that a text stands for. -/
def Decimal.read? (cs : List Char) : Option Decimal :=
  let (negative, rest) := takeSign cs
  let (whole, rest) := spanDigits rest
  let (fractional, rest) := spanFraction rest
  if whole.isEmpty && fractional.isEmpty then none
  else (decimalExponent? rest).map fun e => ⟨negative, ofDigits 10 (whole ++ fractional), e - fractional.length⟩

/-- What an ASCII digit counts. -/
def digitOf (c : Char) : Nat := c.toNat - 0x30

theorem digitValue?_of_isDigit {c : Char} (digit : c.isDigit = true) : Text.digitValue? c = some (digitOf c) := by
  have range : '0' ≤ c ∧ c ≤ '9' := by
    unfold Char.isDigit at digit
    simp only [Bool.and_eq_true, decide_eq_true_eq] at digit
    exact digit
  rw [Text.digitValue?, if_pos range]
  rfl

/-- The digits end where something else begins. -/
theorem spanDigits_append {ds rest : List Char} (digits : ∀ c ∈ ds, c.isDigit = true)
    (stop : ∀ c ∈ rest.head?, Text.digitValue? c = none) : spanDigits (ds ++ rest) = (ds.map digitOf, rest) := by
  induction ds with
  | nil =>
    cases rest with
    | nil => rfl
    | cons c rest => simp [spanDigits, stop c rfl]
  | cons c ds ih =>
    obtain ⟨first, others⟩ := List.forall_mem_cons.1 digits
    simp [spanDigits, digitValue?_of_isDigit first, ih others]

theorem spanDigits_digits {ds : List Char} (digits : ∀ c ∈ ds, c.isDigit = true) :
    spanDigits ds = (ds.map digitOf, []) := by
  have all : spanDigits (ds ++ []) = (ds.map digitOf, []) := spanDigits_append digits (by simp)
  rwa [List.append_nil] at all

theorem ofDigits_map (ds : List Char) : ofDigits 10 (ds.map digitOf) = Nat.ofDigitChars 10 ds 0 := by
  rw [ofDigits, List.foldl_map]
  rfl

theorem takeSign_of_isDigit {c : Char} (digit : c.isDigit = true) (cs : List Char) :
    takeSign (c :: cs) = (false, c :: cs) := by
  unfold takeSign
  split
  · next same =>
    cases same
    exact absurd digit (by decide)
  · next same =>
    cases same
    exact absurd digit (by decide)
  · rfl

/-- Digits with zeros in front of them count the same. -/
theorem ofDigits_leftpad (w n : Nat) : ofDigits 10 (((Nat.toDigits 10 n).leftpad w '0').map digitOf) = n := by
  rw [ofDigits_map, List.leftpad, ofDigitChars_zeros_append, Nat.ofDigitChars_ten_toDigits]

theorem leftpad_ne_nil (w n : Nat) : (Nat.toDigits 10 n).leftpad w '0' ≠ [] :=
  List.append_ne_nil_of_right_ne_nil _ Nat.toDigits_ne_nil

/-- The sign of an exponent is read first, whatever the style writes for it. -/
theorem takeSign_exponentText (style : NumberStyle) (e : Int) :
    takeSign (exponentText style e) = (decide (e < 0), (Nat.toDigits 10 e.natAbs).leftpad style.width '0') := by
  rw [exponentText]
  split
  · next negative =>
    rw [decide_eq_true negative]
    rfl
  · next positive =>
    rw [decide_eq_false positive]
    split
    · rfl
    · obtain ⟨c, cs, start⟩ := List.exists_cons_of_ne_nil (leftpad_ne_nil style.width e.natAbs)
      have digit : c.isDigit = true := isDigit_of_mem_padded (by rw [start]; exact List.mem_cons_self)
      rw [List.nil_append, start, takeSign_of_isDigit digit]

/-- An exponent is read again. -/
theorem decimalExponent?_exponentText {mark : Char} (known : mark = 'e' ∨ mark = 'E') (style : NumberStyle) (e : Int) :
    decimalExponent? (mark :: exponentText style e) = some e := by
  have digits := spanDigits_digits fun c member => isDigit_of_mem_padded (w := style.width) (n := e.natAbs) member
  have value := ofDigits_leftpad style.width e.natAbs
  rw [decimalExponent?, if_pos known]
  simp only [takeSign_exponentText, digits]
  split
  · next none =>
    have empty := congrArg Prod.fst none
    exact absurd (List.map_eq_nil_iff.1 empty) (leftpad_ne_nil _ _)
  · next ds _ same =>
    cases same
    rw [value, Option.some.injEq]
    split
    · next negative =>
      rw [decide_eq_true_eq] at negative
      omega
    · next positive =>
      rw [decide_eq_true_eq] at positive
      omega
  · next other => exact absurd rfl (other _)

namespace Spelling

variable {style : NumberStyle} {s : Spelling}

/-- The pieces of a text are read again, behind a sign or none. -/
theorem read?_chars (mark : style.mark = 'e' ∨ style.mark = 'E') (proper : s.IsProper) (negative : Bool) :
    Decimal.read? ((if negative then ['-'] else []) ++ s.chars style) = some ⟨negative, s.coefficient, s.scale⟩ := by
  have sign : takeSign ((if negative then ['-'] else []) ++ s.chars style) = (negative, s.chars style) := by
    cases negative with
    | true => rfl
    | false =>
      obtain ⟨c, cs, start⟩ := List.exists_cons_of_ne_nil proper.start
      have digit := proper.whole c (by rw [start]; exact List.mem_cons_self)
      have first : s.chars style = c :: (cs ++ (s.fractionChars ++ s.exponentChars style)) := by
        rw [chars, start, List.cons_append]
      rw [first]
      exact takeSign_of_isDigit digit _
  have marked : ∀ c ∈ (s.exponentChars style).head?, c ≠ '.' ∧ Text.digitValue? c = none := by
    intro c start
    rw [head?_exponentChars c start]
    rcases mark with same | same <;> rw [same] <;> decide
  have exponent : decimalExponent? (s.exponentChars style) = some (s.exponent?.getD 0) := by
    rw [exponentChars]
    cases s.exponent? with
    | none => rfl
    | some e => exact decimalExponent?_exponentText mark style e
  have behind : ∀ c ∈ (s.fractionChars ++ s.exponentChars style).head?, Text.digitValue? c = none := by
    rw [fractionChars]
    split
    · exact fun c start => (marked c start).2
    · rintro c ⟨⟩
      decide
  have whole : spanDigits (s.chars style) = (s.whole.map digitOf, s.fractionChars ++ s.exponentChars style) :=
    spanDigits_append proper.whole behind
  have fraction : spanFraction (s.fractionChars ++ s.exponentChars style) =
      (s.fraction.map digitOf, s.exponentChars style) := by
    rw [fractionChars]
    split
    · next none =>
      rw [List.isEmpty_iff.1 none, List.nil_append]
      unfold spanFraction
      split
      · next pointed => exact absurd rfl (marked '.' (by rw [pointed]; rfl)).1
      · rfl
    · exact spanDigits_append proper.fraction fun c start => (marked c start).2
  have some? : (s.whole.map digitOf).isEmpty = false := by
    simpa using proper.start
  simp only [Decimal.read?, sign, whole, fraction, some?, exponent, Bool.false_and, Bool.false_eq_true, if_false,
    Option.map_some, ← List.map_append, ofDigits_map, List.length_map]
  rfl

end Spelling

namespace Decimal

variable {d : Decimal} {style : NumberStyle}

/-- A decimal is read again from its text, in value. -/
theorem read?_text (mark : style.mark = 'e' ∨ style.mark = 'E') (d : Decimal) :
    (read? (d.text style).toList).map value = some d.value := by
  obtain ⟨z, coefficient, scale⟩ := d.denotes_spelling style
  have size : (d.coefficient : ℚ) * 10 ^ z * 10 ^ (d.exponent - z) = d.size := by
    rw [Decimal.size, mul_assoc, ← zpow_natCast, ← zpow_add₀ (by norm_num), add_sub_cancel]
  rw [toList_text, Spelling.read?_chars mark (d.isProper_spelling style), Option.map_some, coefficient, scale]
  simp only [value, Decimal.size]
  push_cast
  rw [size]
  rfl

/-! ## The magnitude of a decimal -/

theorem magnitude_bounds (nonzero : d.coefficient ≠ 0) :
    (10 : ℚ) ^ d.magnitude ≤ d.size ∧ d.size < 10 ^ (d.magnitude + 1) := by
  obtain ⟨least, limit⟩ := Rounding.pow_le_of_digits nonzero
  have some? := Nat.length_toDigits_pos (b := 10) (n := d.coefficient)
  have place : (0 : ℚ) < 10 ^ d.exponent := zpow_pos (by norm_num) _
  have magnitude_eq : d.magnitude = d.exponent + (Nat.toDigits 10 d.coefficient).length - 1 := rfl
  rw [pow_eq_places (i := d.magnitude) (k := d.exponent) (j := (Nat.toDigits 10 d.coefficient).length - 1) (by omega),
    pow_eq_places (i := d.magnitude + 1) (k := d.exponent) (j := (Nat.toDigits 10 d.coefficient).length) (by omega),
    size]
  exact ⟨mul_le_mul_of_nonneg_right (by exact_mod_cast least) place.le,
    mul_lt_mul_of_pos_right (by exact_mod_cast limit) place⟩

/-- A decimal is below a power of ten if and only if its magnitude is. -/
theorem size_lt_iff (nonzero : d.coefficient ≠ 0) (j : Int) : d.size < 10 ^ j ↔ d.magnitude < j := by
  obtain ⟨least, limit⟩ := magnitude_bounds nonzero
  constructor
  · intro less
    exact (zpow_lt_zpow_iff_right₀ (by norm_num)).1 (least.trans_lt less)
  · intro less
    exact limit.trans_le (zpow_le_zpow_right₀ (by norm_num) less)

/-- The sizes of the decimals that facts have without an exponent. -/
theorem inRange_factStyle_iff (nonzero : d.coefficient ≠ 0) :
    d.InRange factStyle ↔ 10 ^ (-3 : Int) ≤ d.size ∧ d.size < 10 ^ (7 : Int) := by
  rw [← not_lt, size_lt_iff nonzero, size_lt_iff nonzero, not_lt]
  rfl

end Decimal

/-! ## Forms of texts -/

/-- The digits `w` and `f` with a point between them, at least one on either side. -/
structure IsPositional (cs w f : List Char) : Prop where
  chars : cs = w ++ '.' :: f
  whole : w ≠ [] ∧ ∀ c ∈ w, c.isDigit = true
  fraction : f ≠ [] ∧ ∀ c ∈ f, c.isDigit = true

/-- The digit `d`, the point, the digits `f`, and the exponent `m` with the digits `n`, as short as can be and out of
the range of positional texts. -/
structure IsScientific (cs : List Char) (d : Char) (f : List Char) (m : Int) (n : List Char) : Prop where
  chars : cs = d :: '.' :: (f ++ 'E' :: ((if m < 0 then ['-'] else []) ++ n))
  first : d.isDigit = true ∧ d ≠ '0'
  fraction : f ≠ [] ∧ ∀ c ∈ f, c.isDigit = true
  /-- No zero ends the fraction, unless it is all there is. -/
  zeros : f = ['0'] ∨ f.getLast? ≠ some '0'
  digits : n ≠ [] ∧ ∀ c ∈ n, c.isDigit = true
  /-- No zero starts the exponent. -/
  lead : n.head? ≠ some '0'
  exponent : Nat.ofDigitChars 10 n 0 = m.natAbs
  range : m ≤ -4 ∨ 7 ≤ m

theorem digitChar_eq_zero {n : Nat} (digit : n < 10) : n.digitChar = '0' ↔ n = 0 := by
  have all : ∀ m < 10, Nat.digitChar m = '0' ↔ m = 0 := by decide
  exact all n digit

/-- No zero starts the digits of a number but those of zero. -/
theorem head?_toDigits_ne {n : Nat} (nonzero : n ≠ 0) : (Nat.toDigits 10 n).head? ≠ some '0' := by
  induction n using Nat.strongRecOn with
  | ind n ih =>
    rw [Nat.toDigits_eq_if (by decide)]
    split
    · next small => simpa [digitChar_eq_zero small] using nonzero
    · next large =>
      rw [List.head?_append_of_ne_nil _ Nat.toDigits_ne_nil]
      exact ih (n / 10) (by omega) (by omega)

theorem getLast?_toDigits (n : Nat) : (Nat.toDigits 10 n).getLast? = some (n % 10).digitChar := by
  rw [Nat.toDigits_eq_if (by decide)]
  split
  · next small => rw [Nat.mod_eq_of_lt small, List.getLast?_singleton]
  · rw [List.getLast?_concat]

theorem exponentText_factStyle (m : Int) :
    exponentText factStyle m = (if m < 0 then ['-'] else []) ++ Nat.toDigits 10 m.natAbs := by
  have some? : 0 < (Nat.toDigits 10 m.natAbs).length := Nat.length_toDigits_pos
  have none : factStyle.width - (Nat.toDigits 10 m.natAbs).length = 0 := Nat.sub_eq_zero_of_le some?
  rw [exponentText, List.leftpad, none]
  rfl

namespace Decimal

variable {d : Decimal}

theorem isPositional_spelling (range : d.InRange factStyle) :
    ∃ w f, IsPositional ((d.spelling factStyle).chars factStyle) w f := by
  have proper := d.isProper_spelling factStyle
  have some? : (d.spelling factStyle).fraction ≠ [] := fraction_ne_nil rfl d
  have none : (d.spelling factStyle).exponent? = none := by
    rw [spelling, if_pos range, exponent?_pointed]
  refine ⟨_, _, ?_, ⟨proper.start, proper.whole⟩, some?, proper.fraction⟩
  simp [Spelling.chars, Spelling.fractionChars, Spelling.exponentChars, none, some?]

theorem isScientific_spelling (nonzero : d.coefficient ≠ 0) (reduced : d.IsReduced) (range : ¬d.InRange factStyle) :
    ∃ c f m n, IsScientific ((d.spelling factStyle).chars factStyle) c f m n := by
  have proper := d.isProper_floated factStyle
  obtain ⟨c, cs, split⟩ := List.exists_cons_of_ne_nil d.digits_ne_nil
  have first : (d.floated factStyle).whole = [c] := by rw [floated, split, List.take_one, List.head?_cons]; rfl
  have rest : (d.floated factStyle).fraction = if cs.isEmpty then ['0'] else cs := by
    simp [floated, split, factStyle]
  have far : d.magnitude ≤ -4 ∨ 7 ≤ d.magnitude := by
    have outside : ¬(-3 ≤ d.magnitude ∧ d.magnitude < 7) := range
    omega
  have lead : c ≠ '0' := by
    have start := head?_toDigits_ne nonzero
    rw [← digits, split] at start
    exact fun same => start (congrArg some same)
  have last : (c :: cs).getLast? ≠ some '0' := by
    rw [← split, digits, getLast?_toDigits, Ne, Option.some.injEq, digitChar_eq_zero (Nat.mod_lt _ (by decide))]
    exact fun zero => nonzero (reduced zero)
  have some? : (d.floated factStyle).fraction ≠ [] := by
    have some? : (d.spelling factStyle).fraction ≠ [] := fraction_ne_nil rfl d
    rwa [spelling, if_neg range] at some?
  rw [spelling, if_neg range]
  refine ⟨c, (d.floated factStyle).fraction, d.magnitude, Nat.toDigits 10 d.magnitude.natAbs, ?_, ?_,
    ⟨some?, proper.fraction⟩, ?_, ?_, head?_toDigits_ne (by omega), Nat.ofDigitChars_ten_toDigits, far⟩
  · have exponent : (d.floated factStyle).exponentChars factStyle = 'E' :: exponentText factStyle d.magnitude := rfl
    rw [Spelling.chars, first, Spelling.fractionChars, List.isEmpty_eq_false_iff.2 some?, exponent,
      exponentText_factStyle]
    rfl
  · exact ⟨proper.whole c (by rw [first]; exact List.mem_cons_self), lead⟩
  · rw [rest]
    cases cs with
    | nil => exact Or.inl rfl
    | cons x xs =>
      rw [List.getLast?_cons_cons] at last
      exact Or.inr last
  · exact ⟨Nat.toDigits_ne_nil, fun c member => Nat.isDigit_of_mem_toDigits (by decide) (by decide) member⟩

end Decimal

/-! ## Texts of binary64 numbers -/

namespace Binary64

theorem negative_shortest (negative : Bool) (s : Nat) (e : Int) : (shortest negative s e).negative = negative := by
  rw [shortest]
  split <;> rfl

/-- The range of numbers that facts have without an exponent. -/
def InRange (x : ℚ) : Prop := 10 ^ (-3 : Int) ≤ x ∧ x < 10 ^ (7 : Int)

/-- **Texts in facts keep numbers.** The text of a finite number other than zero denotes what its text in messages does:
a decimal with the number's sign and at most seventeen digits, no more than half of the last place away from the number.
It is positional from a thousandth up to ten million, and scientific otherwise. Two numbers share a text in facts only
if they share one in messages, and no number shares its text with an integer. -/
theorem text_keeps_number {x : Binary64} {negative : Bool} {s : Nat} {e : Int} (finite : x = .finite negative s e)
    (proper : x.IsProper) (nonzero : s ≠ 0) :
    (∃ d : Decimal, d.negative = negative ∧ d.digits.length ≤ 17 ∧ |d.size - x.size| ≤ 2 ^ e / 2 ∧
      (Decimal.read? (x.text messageStyle).toList).map Decimal.value = some d.value ∧
      (Decimal.read? (x.text factStyle).toList).map Decimal.value = some d.value ∧ (InRange d.size ↔ InRange x.size)) ∧
    (∃ cs, (x.text factStyle).toList = (if negative then ['-'] else []) ++ cs ∧
      (InRange x.size → ∃ w f, IsPositional cs w f) ∧ (¬InRange x.size → ∃ d f m n, IsScientific cs d f m n)) ∧
    (∀ y z : Binary64, y.text factStyle = z.text factStyle → y.text messageStyle = z.text messageStyle) ∧
    ∀ (y : Binary64) (n : Int), y.text factStyle ≠ toString n := by
  subst finite
  obtain ⟨m, -, ⟨low, high⟩, few⟩ := shortest_bounds proper nonzero
  have some? := coefficient_shortest proper nonzero
  obtain ⟨least, limit⟩ := size_shortest_lt proper nonzero
  have ranges : InRange (shortest negative s e).size ↔ InRange (Binary64.finite negative s e).size := by
    rw [InRange, InRange, ← not_lt, ← not_lt, least, limit]
    rfl
  refine ⟨⟨shortest negative s e, negative_shortest negative s e, ?_, ?_, ?_, ?_, ranges⟩, ?_, ?_, ?_⟩
  · rw [Decimal.digits, Nat.length_toDigits_le_iff (by decide) (by decide)]
    exact few
  · rw [size, abs_le]
    constructor <;> linarith
  · exact Decimal.read?_text (Or.inl rfl) _
  · exact Decimal.read?_text (Or.inr rfl) _
  · refine ⟨((shortest negative s e).spelling factStyle).chars factStyle, ?_, fun range => ?_, fun range => ?_⟩
    · rw [text, Decimal.toList_text, negative_shortest]
    · exact Decimal.isPositional_spelling ((Decimal.inRange_factStyle_iff some?).2 (ranges.2 range))
    · refine Decimal.isScientific_spelling some? (isReduced_shortest negative s e) fun inRange => range ?_
      exact ranges.1 ((Decimal.inRange_factStyle_iff some?).1 inRange)
  · exact fun y z same => (text_factStyle_eq_iff y z).1 same
  · intro y n same
    have sorts := Value.valueSort_number y
    rw [same, Value.valueSort_integer] at sorts
    cases sorts

/-- The greatest number below a thousandth. -/
theorem text_keeps_number_below :
    (Binary64.finite true 4611686018427387 (-62)).IsProper ∧
      (Binary64.finite true 4611686018427387 (-62)).text factStyle = "-9.999999999999998E-4" ∧
      (Binary64.finite true 4611686018427387 (-62)).text messageStyle = "-0.0009999999999999998" ∧
      (∃ v, (Decimal.read? "-9.999999999999998E-4".toList).map Decimal.value = some v ∧
        (Decimal.read? "-0.0009999999999999998".toList).map Decimal.value = some v) ∧
      ∃ cs, "-9.999999999999998E-4".toList = '-' :: cs ∧ ∃ d f m n, IsScientific cs d f m n := by
  have proper : (Binary64.finite true 4611686018427387 (-62)).IsProper := by decide +kernel
  have inFacts : (Binary64.finite true 4611686018427387 (-62)).text factStyle = "-9.999999999999998E-4" := by
    decide +kernel
  have inMessages : (Binary64.finite true 4611686018427387 (-62)).text messageStyle = "-0.0009999999999999998" := by
    decide +kernel
  have below : ¬InRange (Binary64.finite true 4611686018427387 (-62)).size := by
    rw [InRange, size]
    norm_num
  obtain ⟨⟨d, -, -, -, first, second, -⟩, ⟨cs, text, -, form⟩, -⟩ := text_keeps_number rfl proper (by decide)
  rw [inMessages] at first
  rw [inFacts] at second text
  exact ⟨proper, inFacts, inMessages, ⟨d.value, second, first⟩, cs, text, form below⟩

end Binary64

/-! ## Texts in facts from texts in messages

The text of a number in a fact can be made from its text in messages: that is taken as it is from a thousandth up to ten
million, and otherwise read as a decimal, whose digits are then written out anew.
-/

/-- Whether `s · 2 ^ e` is below `t · 2 ^ f`. -/
def isLess (s : Nat) (e : Int) (t : Nat) (f : Int) : Bool :=
  s * Nat.pow 2 (e - min e f).toNat < t * Nat.pow 2 (f - min e f).toNat

theorem isLess_iff {s t : Nat} {e f : Int} : isLess s e t f = true ↔ (s : ℚ) * 2 ^ e < t * 2 ^ f := by
  have place (k : Int) (least : min e f ≤ k) :
      (2 : ℚ) ^ k = ((Nat.pow 2 (k - min e f).toNat : Nat) : ℚ) * 2 ^ min e f := by
    rw [Nat.pow_eq, Nat.cast_pow, Nat.cast_ofNat, ← zpow_natCast, ← zpow_add₀ (by norm_num)]
    congr 1
    omega
  rw [isLess, decide_eq_true_eq, place e (min_le_left e f), place f (min_le_right e f), ← mul_assoc, ← mul_assoc,
    mul_lt_mul_iff_left₀ (zpow_pos (by norm_num) _)]
  exact_mod_cast Iff.rfl

namespace Decimal

/-- The decimal without the zeros at the end of its coefficient. -/
def normalized (d : Decimal) : Decimal :=
  let (c, k) := dropZeros d.digits.length d.coefficient d.exponent
  ⟨d.negative, c, k⟩

/-- The digits with a point behind the first one, and the power of ten that it counts. -/
def exponential (d : Decimal) : List Char :=
  d.digits.take 1 ++ '.' :: (if (d.digits.drop 1).isEmpty then ['0'] else d.digits.drop 1) ++
    'E' :: (toString d.magnitude).toList

theorem dropZeros_mul_pow {c z : Nat} (reduced : c % 10 ≠ 0) {fuel : Nat} (enough : z ≤ fuel) (k : Int) :
    dropZeros fuel (c * 10 ^ z) k = (c, k + z) := by
  induction z generalizing fuel k with
  | zero =>
    have last : ¬(c % 10 = 0 ∧ c ≠ 0) := fun both => reduced both.1
    cases fuel with
    | zero => simp [dropZeros]
    | succ fuel => simp [dropZeros, last]
  | succ z ih =>
    obtain ⟨fuel, rfl⟩ : ∃ n, fuel = n + 1 := ⟨fuel - 1, by omega⟩
    have zeros : c * 10 ^ (z + 1) = c * 10 ^ z * 10 := by rw [Nat.pow_succ, Nat.mul_assoc]
    have some? : c * 10 ^ (z + 1) ≠ 0 :=
      Nat.mul_ne_zero (fun none => reduced (by rw [none])) (Nat.pow_pos (by decide)).ne'
    rw [dropZeros, if_pos ⟨by rw [zeros, Nat.mul_mod_left], some?⟩, zeros, Nat.mul_div_cancel _ (by decide),
      ih (by omega)]
    congr 1
    omega

/-- A number has more digits than zeros at its end. -/
theorem lt_length_toDigits {c : Nat} (nonzero : c ≠ 0) (z : Nat) : z < (Nat.toDigits 10 (c * 10 ^ z)).length := by
  by_contra few
  have some? : 0 < (Nat.toDigits 10 (c * 10 ^ z)).length := Nat.length_toDigits_pos
  have less := (Nat.length_toDigits_le_iff (by decide) (by omega)).1 (not_lt.1 few)
  have least : 10 ^ z ≤ c * 10 ^ z := Nat.le_mul_of_pos_left _ (Nat.pos_of_ne_zero nonzero)
  omega

/-- The reduced decimal that pieces stand for is found again once the zeros are dropped. -/
theorem normalized_of_denotes {d : Decimal} {s : Spelling} (denotes : d.Denotes s) (nonzero : d.coefficient ≠ 0)
    (reduced : d.IsReduced) : normalized ⟨d.negative, s.coefficient, s.scale⟩ = d := by
  obtain ⟨z, coefficient, scale⟩ := denotes
  have zeros := dropZeros_mul_pow (z := z) (fun zero => nonzero (reduced zero)) (lt_length_toDigits nonzero z).le
    (d.exponent - z)
  rw [normalized, coefficient, scale, digits]
  simp only [zeros, sub_add_cancel]

/-- Outside of the positional range facts have the digits and the exponent of the decimal. -/
theorem text_of_not_inRange {d : Decimal} (range : ¬d.InRange factStyle) :
    d.text factStyle = String.ofList ((if d.negative then ['-'] else []) ++ d.exponential) := by
  have fraction : (if (d.digits.drop 1).isEmpty then (if factStyle.fraction then ['.', '0'] else [])
      else '.' :: d.digits.drop 1) = '.' :: (if (d.digits.drop 1).isEmpty then ['0'] else d.digits.drop 1) := by
    split <;> rfl
  have exponent : (toString d.magnitude).toList = exponentText factStyle d.magnitude := Value.toList_toString _
  rw [← String.toList_inj, toList_text, spelling, if_neg range, chars_floated, scientific, fraction, exponential,
    exponent, String.toList_ofList]
  rfl

/-- In the positional range of facts the text is that in messages. -/
theorem text_of_inRange {d : Decimal} (range : d.InRange factStyle) : d.text factStyle = d.text messageStyle := by
  have bounds : -3 ≤ d.magnitude ∧ d.magnitude < 7 := range
  have wider : -4 ≤ d.magnitude ∧ d.magnitude < 16 := by omega
  have inFacts : (d.text factStyle).toList = (if d.negative then ['-'] else []) ++ d.positional := by
    rw [toList_text, spelling, if_pos range, chars_pointed]
  have inMessages : (d.text messageStyle).toList = (if d.negative then ['-'] else []) ++ d.positional := by
    rw [toList_text, spelling, if_pos (c := d.InRange messageStyle) wider, chars_pointed]
  rw [← String.toList_inj, inFacts, inMessages]

end Decimal

namespace Binary64

/-- Whether the size of a finite number is from a thousandth up to ten million, both as binary64 numbers. -/
def isPlain (s : Nat) (e : Int) : Bool :=
  match ofDecimal false 1 (-3), ofDecimal false 1 7 with
  | .finite _ t f, .finite _ u g => !isLess s e t f && isLess s e u g
  | _, _ => false

/-- The text of a number in a fact, made from its text in messages. -/
def factText : Binary64 → String
  | .nan => "NaN"
  | .infinite negative => if negative then "-Infinity" else "Infinity"
  | .finite negative s e =>
    if s = 0 then if negative then "-0.0" else "0.0"
    else if isPlain s e then (finite negative s e).text messageStyle
    else
      match Decimal.read? ((finite false s e).text messageStyle).toList with
      | some d => String.ofList ((if negative then ['-'] else []) ++ d.normalized.exponential)
      | none => ""

section Finite

variable {negative : Bool} {s : Nat} {e : Int} (proper : (finite negative s e).IsProper)

include proper

/-- A number is below a thousandth if and only if it is below the binary64 number nearest to that. -/
theorem size_lt_thousandth_iff :
    (s : ℚ) * 2 ^ e < (4611686018427388 : ℕ) * 2 ^ (-62 : Int) ↔ (s : ℚ) * 2 ^ e < 10 ^ (-3 : Int) := by
  refine ⟨fun less => ?_, fun less => less.trans (by norm_num)⟩
  by_cases small : e < -62
  · have few : (s : ℚ) < 2 ^ 53 := by exact_mod_cast significand_lt proper
    calc (s : ℚ) * 2 ^ e
      _ < 2 ^ 53 * 2 ^ e := mul_lt_mul_of_pos_right few (zpow_pos (by norm_num) _)
      _ ≤ 2 ^ 53 * 2 ^ (-63 : Int) :=
        mul_le_mul_of_nonneg_left (zpow_le_zpow_right₀ (by norm_num) (by omega)) (by norm_num)
      _ < 10 ^ (-3 : Int) := by norm_num
  · -- the number is a multiple of the place of the nearest one, and so at least one such place below it
    obtain ⟨k, rfl⟩ : ∃ k : Nat, e = k + -62 := ⟨(e + 62).toNat, by omega⟩
    rw [zpow_add₀ (by norm_num), ← mul_assoc, mul_lt_mul_iff_left₀ (zpow_pos (by norm_num) _), zpow_natCast] at less
    have whole : s * 2 ^ k < 4611686018427388 := by exact_mod_cast less
    have cast : (s : ℚ) * 2 ^ k ≤ 4611686018427387 := by exact_mod_cast Nat.le_of_lt_succ whole
    calc (s : ℚ) * 2 ^ ((k : Int) + -62)
      _ = s * 2 ^ k * 2 ^ (-62 : Int) := by rw [zpow_add₀ (by norm_num), zpow_natCast, mul_assoc]
      _ ≤ 4611686018427387 * 2 ^ (-62 : Int) := mul_le_mul_of_nonneg_right cast (zpow_pos (by norm_num) _).le
      _ < 10 ^ (-3 : Int) := by norm_num

theorem isPlain_iff (nonzero : s ≠ 0) : isPlain s e = true ↔ (shortest negative s e).InRange factStyle := by
  have thousandth : ofDecimal false 1 (-3) = .finite false 4611686018427388 (-62) := by decide +kernel
  have tenMillion : ofDecimal false 1 7 = .finite false 5368709120000000 (-29) := by decide +kernel
  have million : ((5368709120000000 : ℕ) : ℚ) * 2 ^ (-29 : Int) = 10 ^ (7 : Int) := by norm_num
  obtain ⟨least, limit⟩ := size_shortest_lt proper nonzero
  have plain : isPlain s e =
      (!isLess s e 4611686018427388 (-62) && isLess s e 5368709120000000 (-29)) := by
    rw [isPlain, thousandth, tenMillion]
  rw [plain, Decimal.inRange_factStyle_iff (coefficient_shortest proper nonzero), ← not_lt, least, limit, ← million,
    ← isLess_iff, ← size_lt_thousandth_iff proper, ← isLess_iff]
  simp

theorem factText_finite (nonzero : s ≠ 0) : (finite negative s e).factText = (finite negative s e).text factStyle := by
  rw [factText, if_neg nonzero]
  by_cases plain : isPlain s e = true
  · rw [if_pos plain]
    exact (Decimal.text_of_inRange ((isPlain_iff proper nonzero).1 plain)).symm
  · have unsigned : (finite false s e).IsProper := proper
    have far : ¬(shortest negative s e).InRange factStyle := mt (isPlain_iff proper nonzero).2 plain
    have read : Decimal.read? ((finite false s e).text messageStyle).toList =
        some ⟨false, ((shortest false s e).spelling messageStyle).coefficient,
          ((shortest false s e).spelling messageStyle).scale⟩ := by
      rw [text, Decimal.toList_text, negative_shortest]
      exact Spelling.read?_chars (Or.inl rfl) (Decimal.isProper_spelling _ _) false
    have found := Decimal.normalized_of_denotes ((shortest false s e).denotes_spelling messageStyle)
      (coefficient_shortest unsigned nonzero) (isReduced_shortest false s e)
    rw [negative_shortest] at found
    -- the sign is of no account to the digits
    have same : (shortest false s e).exponential = (shortest negative s e).exponential := by
      rw [shortest, shortest, if_neg nonzero, if_neg nonzero]
      rfl
    rw [if_neg plain, read, text, Decimal.text_of_not_inRange far, negative_shortest, ← same]
    simp only [found]

end Finite

/-- **The text of a number in a fact is made from its text in messages.** -/
theorem factText_eq_text {x : Binary64} (proper : x.IsProper) : x.factText = x.text factStyle := by
  cases x with
  | nan => rfl
  | infinite negative => cases negative <;> rfl
  | finite negative s e =>
    by_cases zero : s = 0
    · rw [factText, if_pos zero, text, shortest, if_pos zero]
      cases negative <;> rfl
    · exact factText_finite proper zero

end Binary64

end ProgramFacts.Numeral
