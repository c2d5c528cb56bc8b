import ProgramFacts.Numeral.Shortest
import Mathlib.Algebra.Group.Nat.Defs
import Mathlib.Data.Nat.Basic

/-!
# What the texts of numbers tell

The text of a decimal has digits in front of a point and behind it, and maybe an exponent. From these pieces the
coefficient and the exponent of the decimal are found again, up to zeros at the end of the coefficient. The shortest
decimal of a binary64 number has none, so whatever way numbers are written in, two of them have the same text in the one
if and only if they have the same in the other.
-/

namespace ProgramFacts.Numeral

/-! ## Digits -/

theorem Decimal.isDigit_of_mem_digits {d : Decimal} {c : Char} (member : c ∈ d.digits) : c.isDigit = true :=
  Nat.isDigit_of_mem_toDigits (by decide) (by decide) member

theorem Decimal.digits_ne_nil (d : Decimal) : d.digits ≠ [] := Nat.toDigits_ne_nil

theorem Decimal.ofDigitChars_digits (d : Decimal) : Nat.ofDigitChars 10 d.digits 0 = d.coefficient :=
  Nat.ofDigitChars_ten_toDigits

theorem isDigit_of_mem_zeros {n : Nat} {c : Char} (member : c ∈ List.replicate n '0') : c.isDigit = true := by
  rw [List.eq_of_mem_replicate member]
  decide

theorem ofDigitChars_append_zeros (ds : List Char) (n : Nat) :
    Nat.ofDigitChars 10 (ds ++ List.replicate n '0') 0 = Nat.ofDigitChars 10 ds 0 * 10 ^ n := by
  rw [Nat.ofDigitChars_append, Nat.ofDigitChars_replicate_zero, Nat.mul_comm]

theorem ofDigitChars_zeros_append (ds : List Char) (n : Nat) :
    Nat.ofDigitChars 10 (List.replicate n '0' ++ ds) 0 = Nat.ofDigitChars 10 ds 0 := by
  rw [Nat.ofDigitChars_append, Nat.ofDigitChars_replicate_zero, Nat.mul_zero]

/-- Digits end where something else begins. -/
theorem digits_append_inj {a b x y : List Char} (da : ∀ c ∈ a, c.isDigit = true) (db : ∀ c ∈ b, c.isDigit = true)
    (dx : ∀ c ∈ x.head?, c.isDigit = false) (dy : ∀ c ∈ y.head?, c.isDigit = false) (same : a ++ x = b ++ y) :
    a = b ∧ x = y := by
  have none {z : List Char} (dz : ∀ c ∈ z.head?, c.isDigit = false) : z.takeWhile Char.isDigit = [] := by
    cases z with
    | nil => rfl
    | cons c z => rw [List.takeWhile_cons_of_neg (by rw [dz c rfl]; decide)]
  have front : a = b := by
    have taken := congrArg (List.takeWhile Char.isDigit) same
    rwa [List.takeWhile_append_of_pos da, List.takeWhile_append_of_pos db, none dx, none dy, List.append_nil,
      List.append_nil] at taken
  subst front
  exact ⟨rfl, List.append_cancel_left same⟩

/-! ## Exponents -/

theorem isDigit_of_mem_padded {w n : Nat} {c : Char} (member : c ∈ (Nat.toDigits 10 n).leftpad w '0') :
    c.isDigit = true := by
  rcases List.mem_append.1 member with zero | digit
  · exact isDigit_of_mem_zeros zero
  · exact Nat.isDigit_of_mem_toDigits (by decide) (by decide) digit

theorem minus_mem_exponentText (style : NumberStyle) {e : Int} : '-' ∈ exponentText style e ↔ e < 0 := by
  have digits : '-' ∉ (Nat.toDigits 10 e.natAbs).leftpad style.width '0' := fun member =>
    absurd (isDigit_of_mem_padded member) (by decide)
  rw [exponentText, List.mem_append, or_iff_left digits]
  split
  · next negative => exact iff_of_true List.mem_cons_self negative
  · next positive => split <;> simpa using positive

/-- An exponent is found again from its text. -/
theorem exponentText_inj {style : NumberStyle} {e f : Int} (same : exponentText style e = exponentText style f) :
    e = f := by
  have sign : e < 0 ↔ f < 0 := by rw [← minus_mem_exponentText style, same, minus_mem_exponentText]
  have digits : (Nat.toDigits 10 e.natAbs).leftpad style.width '0' =
      (Nat.toDigits 10 f.natAbs).leftpad style.width '0' := by
    rw [exponentText, exponentText] at same
    simp only [sign] at same
    exact List.append_cancel_left same
  have value (n : Nat) : Nat.ofDigitChars 10 ((Nat.toDigits 10 n).leftpad style.width '0') 0 = n := by
    rw [List.leftpad, ofDigitChars_zeros_append, Nat.ofDigitChars_ten_toDigits]
  have magnitude : e.natAbs = f.natAbs := by rw [← value e.natAbs, digits, value]
  omega

/-! ## Spellings -/

/-- The pieces that the text of a decimal is made of. -/
structure Spelling where
  whole : List Char
  fraction : List Char
  exponent? : Option Int

namespace Spelling

/-- The point with the digits behind it, if there are any. -/
def fractionChars (s : Spelling) : List Char := if s.fraction.isEmpty then [] else '.' :: s.fraction

def exponentChars (style : NumberStyle) (s : Spelling) : List Char :=
  match s.exponent? with
  | none => []
  | some e => style.mark :: exponentText style e

def chars (style : NumberStyle) (s : Spelling) : List Char := s.whole ++ (s.fractionChars ++ s.exponentChars style)

/-- All digits as one number. -/
def coefficient (s : Spelling) : Nat := Nat.ofDigitChars 10 (s.whole ++ s.fraction) 0

/-- The power of ten that the last digit counts. -/
def scale (s : Spelling) : Int := s.exponent?.getD 0 - s.fraction.length

/-- There are digits in front of the point, and only digits on either side of it. -/
structure IsProper (s : Spelling) : Prop where
  start : s.whole ≠ []
  whole : ∀ c ∈ s.whole, c.isDigit = true
  fraction : ∀ c ∈ s.fraction, c.isDigit = true

end Spelling

/-- Whether a text does not start like that of a decimal. -/
def isWord : List Char → Bool
  | [] => false
  | c :: _ => !c.isDigit && c != '-'

/-- What keeps the pieces of a text apart in a style. -/
structure NumberStyle.IsClear (style : NumberStyle) : Prop where
  mark : style.mark ≠ '.' ∧ style.mark.isDigit = false
  range : style.least ≤ -1 ∧ 0 < style.limit
  notNumber : isWord style.notNumber.toList = true
  infinity : isWord style.infinity.toList = true
  words : style.notNumber ≠ style.infinity

theorem isClear_messageStyle : messageStyle.IsClear := ⟨by decide, by decide, by decide, by decide, by decide⟩

theorem isClear_factStyle : factStyle.IsClear := ⟨by decide, by decide, by decide, by decide, by decide⟩

namespace Spelling

variable {style : NumberStyle} {s s' : Spelling}

theorem head?_exponentChars : ∀ c ∈ (s.exponentChars style).head?, c = style.mark := by
  rw [exponentChars]
  cases s.exponent? with
  | none => simp
  | some e => simp

theorem exponent?_inj (same : s.exponentChars style = s'.exponentChars style) : s.exponent? = s'.exponent? := by
  rw [exponentChars, exponentChars] at same
  cases first : s.exponent? with
  | none =>
    cases second : s'.exponent? with
    | none => rfl
    | some e => simp [first, second] at same
  | some e =>
    cases second : s'.exponent? with
    | none => simp [first, second] at same
    | some f =>
      simp only [first, second, List.cons.injEq, true_and] at same
      rw [exponentText_inj same]

/-- The pieces are found again from the text. -/
theorem chars_inj (clear : style.IsClear) (proper : s.IsProper) (proper' : s'.IsProper)
    (same : s.chars style = s'.chars style) : s = s' := by
  have mark (r : Spelling) : ∀ c ∈ (r.exponentChars style).head?, c ≠ '.' ∧ c.isDigit = false := by
    intro c start
    rw [head?_exponentChars c start]
    exact clear.mark
  have rest (r : Spelling) : ∀ c ∈ (r.fractionChars ++ r.exponentChars style).head?, c.isDigit = false := by
    rw [fractionChars]
    split
    · exact fun c start => (mark r c start).2
    · rintro c ⟨⟩
      decide
  obtain ⟨whole, behind⟩ := digits_append_inj proper.whole proper'.whole (rest s) (rest s') same
  have pieces : s.fraction = s'.fraction ∧ s.exponentChars style = s'.exponentChars style := by
    rw [fractionChars, fractionChars] at behind
    split at behind
    · next none =>
      split at behind
      · next none' => exact ⟨(List.isEmpty_iff.1 none).trans (List.isEmpty_iff.1 none').symm, behind⟩
      · rw [List.nil_append] at behind
        exact absurd rfl (mark s '.' (by rw [behind]; rfl)).1
    · split at behind
      · rw [List.nil_append] at behind
        exact absurd rfl (mark s' '.' (by rw [← behind]; rfl)).1
      · rw [List.cons_append, List.cons_append, List.cons.injEq] at behind
        exact digits_append_inj proper.fraction proper'.fraction (fun c start => (mark s c start).2)
          (fun c start => (mark s' c start).2) behind.2
  have exponent := exponent?_inj pieces.2
  cases s
  cases s'
  simp_all

end Spelling

/-! ## Spellings of decimals -/

namespace Decimal

variable {d d' : Decimal} {style : NumberStyle}

/-- The pieces of the text without an exponent. -/
def pointed (d : Decimal) : Spelling :=
  let ds := d.digits
  let places := (-d.exponent).toNat
  if 0 ≤ d.exponent then ⟨ds ++ List.replicate d.exponent.toNat '0', ['0'], none⟩
  else if places < ds.length then ⟨ds.take (ds.length - places), ds.drop (ds.length - places), none⟩
  else ⟨['0'], List.replicate (places - ds.length) '0' ++ ds, none⟩

/-- The pieces of the text with an exponent. -/
def floated (style : NumberStyle) (d : Decimal) : Spelling :=
  let rest := d.digits.drop 1
  ⟨d.digits.take 1, if rest.isEmpty && style.fraction then ['0'] else rest, some d.magnitude⟩

/-- Whether the decimal is written without an exponent. -/
def InRange (style : NumberStyle) (d : Decimal) : Prop := style.least ≤ d.magnitude ∧ d.magnitude < style.limit

instance : Decidable (d.InRange style) := inferInstanceAs (Decidable (_ ∧ _))

/-- The pieces of the text. -/
def spelling (style : NumberStyle) (d : Decimal) : Spelling := if d.InRange style then d.pointed else d.floated style

theorem chars_pointed (d : Decimal) (style : NumberStyle) : d.pointed.chars style = d.positional := by
  simp only [pointed, positional]
  split
  · simp [Spelling.chars, Spelling.fractionChars, Spelling.exponentChars]
  · split
    · next places =>
      have some? : d.digits.drop (d.digits.length - (-d.exponent).toNat) ≠ [] := by
        rw [Ne, List.drop_eq_nil_iff]
        omega
      simp [Spelling.chars, Spelling.fractionChars, Spelling.exponentChars, some?]
    · simp [Spelling.chars, Spelling.fractionChars, Spelling.exponentChars, d.digits_ne_nil]

theorem chars_floated (d : Decimal) (style : NumberStyle) : (d.floated style).chars style = d.scientific style := by
  cases rest : d.digits.drop 1 <;> cases fraction : style.fraction <;>
    simp [floated, scientific, Spelling.chars, Spelling.fractionChars, Spelling.exponentChars, rest, fraction,
      -List.drop_one]

/-- The text of a decimal is its sign and its pieces. -/
theorem toList_text (d : Decimal) (style : NumberStyle) :
    (d.text style).toList = (if d.negative then ['-'] else []) ++ (d.spelling style).chars style := by
  rw [text, String.toList_ofList, spelling]
  by_cases range : style.least ≤ d.magnitude ∧ d.magnitude < style.limit
  · rw [if_pos range, if_pos (c := d.InRange style) range, chars_pointed]
  · rw [if_neg range, if_neg (c := d.InRange style) range, chars_floated]

theorem isProper_pointed (d : Decimal) : d.pointed.IsProper := by
  have digits {c : Char} (member : c ∈ d.digits) := d.isDigit_of_mem_digits member
  have zero (c : Char) (member : c ∈ ['0']) : c.isDigit = true := isDigit_of_mem_zeros (n := 1) member
  simp only [pointed]
  split
  · refine ⟨List.append_ne_nil_of_left_ne_nil d.digits_ne_nil _, fun c member => ?_, zero⟩
    exact (List.mem_append.1 member).elim digits isDigit_of_mem_zeros
  · split
    · refine ⟨?_, fun c member => digits (List.mem_of_mem_take member),
        fun c member => digits (List.mem_of_mem_drop member)⟩
      rw [Ne, List.take_eq_nil_iff, not_or]
      exact ⟨by omega, d.digits_ne_nil⟩
    · exact ⟨List.cons_ne_nil _ _, zero, fun c member =>
        (List.mem_append.1 member).elim isDigit_of_mem_zeros digits⟩

theorem isProper_floated (d : Decimal) (style : NumberStyle) : (d.floated style).IsProper := by
  refine ⟨?_, fun c member => d.isDigit_of_mem_digits (List.mem_of_mem_take member), ?_⟩
  · rw [Ne, floated, List.take_eq_nil_iff, not_or]
    exact ⟨Nat.one_ne_zero, d.digits_ne_nil⟩
  · simp only [floated]
    split
    · exact fun c member => isDigit_of_mem_zeros (n := 1) member
    · exact fun c member => d.isDigit_of_mem_digits (List.mem_of_mem_drop member)

theorem isProper_spelling (d : Decimal) (style : NumberStyle) : (d.spelling style).IsProper := by
  rw [spelling]
  split
  · exact d.isProper_pointed
  · exact d.isProper_floated style

/-- Where a lone digit gets a fraction, there is one in every text. -/
theorem fraction_ne_nil (fractional : style.fraction = true) (d : Decimal) : (d.spelling style).fraction ≠ [] := by
  rw [spelling]
  split
  · simp only [pointed]
    split
    · exact List.cons_ne_nil _ _
    · split
      · rw [Ne, List.drop_eq_nil_iff]
        omega
      · exact List.append_ne_nil_of_right_ne_nil _ d.digits_ne_nil
  · simp only [floated, fractional, Bool.and_true]
    split
    · exact List.cons_ne_nil _ _
    · next some? => exact fun none => some? (List.isEmpty_iff.2 none)

/-! ### The decimal of a spelling -/

/-- The pieces stand for the decimal: they have its coefficient with some zeros behind it, and the exponent that goes
with these. -/
def Denotes (d : Decimal) (s : Spelling) : Prop :=
  ∃ z : Nat, s.coefficient = d.coefficient * 10 ^ z ∧ s.scale = d.exponent - z

theorem denotes_pointed (d : Decimal) : d.Denotes d.pointed := by
  simp only [pointed]
  split
  · next whole =>
    refine ⟨d.exponent.toNat + 1, ?_, ?_⟩
    · have zeros : d.digits ++ List.replicate d.exponent.toNat '0' ++ ['0'] =
          d.digits ++ List.replicate (d.exponent.toNat + 1) '0' := by
        rw [List.append_assoc, ← List.replicate_succ']
      rw [Spelling.coefficient, zeros, ofDigitChars_append_zeros, ofDigitChars_digits]
    · simp only [Spelling.scale, Option.getD_none, List.length_singleton]
      omega
  · split
    · next places =>
      refine ⟨0, ?_, ?_⟩
      · rw [Spelling.coefficient, List.take_append_drop, ofDigitChars_digits, Nat.pow_zero, Nat.mul_one]
      · simp only [Spelling.scale, Option.getD_none, List.length_drop]
        omega
    · refine ⟨0, ?_, ?_⟩
      · have zero : '0' :: (List.replicate ((-d.exponent).toNat - d.digits.length) '0' ++ d.digits) =
            List.replicate ((-d.exponent).toNat - d.digits.length + 1) '0' ++ d.digits := by
          rw [List.replicate_succ, List.cons_append]
        rw [Spelling.coefficient, List.singleton_append, zero, ofDigitChars_zeros_append, ofDigitChars_digits,
          Nat.pow_zero, Nat.mul_one]
      · simp only [Spelling.scale, Option.getD_none, List.length_append, List.length_replicate]
        omega

theorem denotes_floated (d : Decimal) (style : NumberStyle) : d.Denotes (d.floated style) := by
  have some? : 0 < d.digits.length := List.length_pos_iff.2 d.digits_ne_nil
  simp only [floated]
  split
  · next lone =>
    rw [Bool.and_eq_true, List.isEmpty_iff, List.drop_eq_nil_iff] at lone
    refine ⟨1, ?_, ?_⟩
    · rw [Spelling.coefficient, List.take_of_length_le lone.1]
      exact (ofDigitChars_append_zeros d.digits 1).trans (by rw [ofDigitChars_digits])
    · simp only [Spelling.scale, Option.getD_some, magnitude, List.length_singleton]
      omega
  · refine ⟨0, ?_, ?_⟩
    · rw [Spelling.coefficient, List.take_append_drop, ofDigitChars_digits, Nat.pow_zero, Nat.mul_one]
    · simp only [Spelling.scale, Option.getD_some, magnitude, List.length_drop]
      omega

/-- The text of a decimal stands for the decimal, whatever the style. -/
theorem denotes_spelling (d : Decimal) (style : NumberStyle) : d.Denotes (d.spelling style) := by
  rw [spelling]
  split
  · exact d.denotes_pointed
  · exact d.denotes_floated style

/-- A decimal with no zeros at the end of its coefficient. -/
def IsReduced (d : Decimal) : Prop := d.coefficient % 10 = 0 → d.coefficient = 0

/-- Two numbers that are equal up to zeros at the end, of which they have none, are equal. -/
theorem eq_of_mul_pow_eq {c c' z z' : Nat} (reduced : c % 10 ≠ 0) (reduced' : c' % 10 ≠ 0)
    (same : c * 10 ^ z = c' * 10 ^ z') : c = c' ∧ z = z' := by
  have least {a b m n : Nat} (reduced : a % 10 ≠ 0) (same : a * 10 ^ m = b * 10 ^ n) : n ≤ m := by
    by_contra more
    obtain ⟨k, rfl⟩ : ∃ k, n = m + (k + 1) := ⟨n - m - 1, by omega⟩
    have shifted : a = b * 10 ^ k * 10 := by
      refine Nat.eq_of_mul_eq_mul_right (Nat.pow_pos (n := m) (by decide : 0 < 10)) ?_
      rw [same, Nat.add_comm, Nat.pow_add, Nat.pow_succ, ← Nat.mul_assoc, ← Nat.mul_assoc]
    exact reduced (by rw [shifted, Nat.mul_mod_left])
  obtain rfl : z = z' := Nat.le_antisymm (least reduced' same.symm) (least reduced same)
  exact ⟨Nat.eq_of_mul_eq_mul_right (Nat.pow_pos (by decide)) same, rfl⟩

/-- Pieces stand for one reduced decimal at most, zeros apart. -/
theorem Denotes.unique {s : Spelling} (reduced : d.IsReduced) (reduced' : d'.IsReduced) (first : d.Denotes s)
    (second : d'.Denotes s) :
    d.coefficient = d'.coefficient ∧ (d.coefficient ≠ 0 → d.exponent = d'.exponent) := by
  obtain ⟨z, coefficient, scale⟩ := first
  obtain ⟨z', coefficient', scale'⟩ := second
  have same : d.coefficient * 10 ^ z = d'.coefficient * 10 ^ z' := coefficient.symm.trans coefficient'
  have zero : d.coefficient = 0 ↔ d'.coefficient = 0 := by
    have cancel (n z : Nat) : n * 10 ^ z = 0 ↔ n = 0 := by
      rw [Nat.mul_eq_zero, or_iff_left (Nat.ne_of_gt (Nat.pow_pos (by decide : 0 < 10)))]
    rw [← cancel _ z, same, cancel]
  by_cases none : d.coefficient = 0
  · exact ⟨none.trans (zero.1 none).symm, fun some? => absurd none some?⟩
  · obtain ⟨coefficients, zeros⟩ := eq_of_mul_pow_eq (mt reduced none) (mt reduced' (mt zero.2 none)) same
    exact ⟨coefficients, fun _ => by omega⟩

/-! ### Decimals with the same text -/

/-- Whether two decimals are the same, but for the exponent of a zero that is written `0.0`. -/
def Same (d d' : Decimal) : Prop :=
  d.coefficient = d'.coefficient ∧
    (d.exponent = d'.exponent ∨
      d.coefficient = 0 ∧ (d.exponent = -1 ∨ d.exponent = 0) ∧ (d'.exponent = -1 ∨ d'.exponent = 0))

theorem digits_of_zero (zero : d.coefficient = 0) : d.digits = ['0'] := by
  rw [digits, zero, Nat.toDigits_zero]

theorem magnitude_of_zero (zero : d.coefficient = 0) : d.magnitude = d.exponent := by
  rw [magnitude, digits_of_zero zero, List.length_singleton]
  omega

theorem lengths_pointed_of_zero (zero : d.coefficient = 0) :
    d.pointed.whole.length = d.exponent.toNat + 1 ∧ d.pointed.fraction.length = max (-d.exponent).toNat 1 := by
  simp only [pointed, digits_of_zero zero, List.length_singleton]
  split
  · simp only [List.length_append, List.length_replicate, List.length_singleton]
    omega
  · rw [if_neg (by omega)]
    simp only [List.length_append, List.length_replicate, List.length_singleton]
    omega

theorem pointed_of_zero (zero : d.coefficient = 0) (last : d.exponent = -1 ∨ d.exponent = 0) :
    d.pointed = ⟨['0'], ['0'], none⟩ := by
  rcases last with last | last <;> simp [pointed, digits_of_zero zero, last]

theorem exponent?_pointed (d : Decimal) : d.pointed.exponent? = none := by
  simp only [pointed]
  split
  · rfl
  · split <;> rfl

/-- Zeros that are spelled alike. -/
theorem exponents_of_zero (zero : d.coefficient = 0) (zero' : d'.coefficient = 0)
    (same : d.spelling style = d'.spelling style) :
    d.exponent = d'.exponent ∨ (d.exponent = -1 ∨ d.exponent = 0) ∧ (d'.exponent = -1 ∨ d'.exponent = 0) := by
  rw [spelling, spelling] at same
  split at same
  · split at same
    · -- the digits on either side of the point give the exponent away, unless there is one on each
      obtain ⟨whole, fraction⟩ := lengths_pointed_of_zero zero
      obtain ⟨whole', fraction'⟩ := lengths_pointed_of_zero zero'
      rw [same] at whole fraction
      omega
    · have absent := d.exponent?_pointed
      rw [same] at absent
      cases absent
  · split at same
    · have absent := d'.exponent?_pointed
      rw [← same] at absent
      cases absent
    · have exponent : some d.magnitude = some d'.magnitude := congrArg Spelling.exponent? same
      rw [Option.some.injEq, magnitude_of_zero zero, magnitude_of_zero zero'] at exponent
      exact Or.inl exponent

/-- Reduced decimals are spelled alike, whatever the style, if and only if they are the same. -/
theorem spelling_eq_iff (clear : style.IsClear) (reduced : d.IsReduced) (reduced' : d'.IsReduced) :
    d.spelling style = d'.spelling style ↔ d.Same d' := by
  constructor
  · intro same
    obtain ⟨coefficient, exponent⟩ :=
      (d.denotes_spelling style).unique reduced reduced' (same ▸ d'.denotes_spelling style)
    refine ⟨coefficient, ?_⟩
    by_cases zero : d.coefficient = 0
    · exact (exponents_of_zero zero (coefficient ▸ zero) same).imp_right fun last => ⟨zero, last⟩
    · exact Or.inl (exponent zero)
  · rintro ⟨coefficient, exponent | ⟨zero, last⟩⟩
    · obtain ⟨negative, c, k⟩ := d
      obtain ⟨negative', c', k'⟩ := d'
      cases coefficient
      cases exponent
      rfl
    · have zero' : d'.coefficient = 0 := coefficient ▸ zero
      have range := clear.range
      have here : d.InRange style := by rw [InRange, magnitude_of_zero zero]; omega
      have there : d'.InRange style := by rw [InRange, magnitude_of_zero zero']; omega
      rw [spelling, spelling, if_pos here, if_pos there, pointed_of_zero zero last.1, pointed_of_zero zero' last.2]

end Decimal

/-! ## The shortest decimal is reduced -/

theorem dropZeros_reduced {fuel c : Nat} {k : Int} (few : c < 10 ^ (fuel + 1)) :
    (dropZeros fuel c k).1 % 10 = 0 → (dropZeros fuel c k).1 = 0 := by
  induction fuel generalizing c k with
  | zero =>
    -- a single digit is left, and the only one that a zero ends with is zero
    intro zero
    rw [dropZeros] at zero ⊢
    omega
  | succ fuel ih =>
    rw [dropZeros]
    split
    · exact ih (by rw [Nat.pow_succ] at few; omega)
    · omega

namespace Rounding

variable {r : Rounding}

theorem divideToEven_le (n d : Nat) : divideToEven n d ≤ n / d + 1 := by
  simp only [divideToEven]
  split
  · omega
  · split
    · exact Nat.le_refl _
    · omega

/-- What is found on a grid is one of the two neighbours of the number. -/
theorem onGrid?_le {k : Int} {c : Nat} (found : r.onGrid? k = some c) :
    c ≤ r.value * Nat.pow 10 (-k).toNat / (r.unit * Nat.pow 10 k.toNat) + 1 := by
  simp only [onGrid?] at found
  split at found
  · cases found
    exact divideToEven_le _ _
  · cases found
    exact Nat.le_succ _
  · cases found
    exact Nat.le_refl _
  · cases found

theorem quotient_lt {value unit p a b length : Nat} (positive : 0 < unit)
    (digits : value * Nat.pow 10 p / unit < Nat.pow 10 length) (grid : length + a ≤ 17 + p + b) :
    value * Nat.pow 10 a / (unit * Nat.pow 10 b) < 10 ^ 17 := by
  simp only [Nat.pow_eq] at digits ⊢
  have ten (n : Nat) : 0 < 10 ^ n := Nat.pow_pos (by decide)
  rw [Nat.div_lt_iff_lt_mul positive] at digits
  rw [Nat.div_lt_iff_lt_mul (Nat.mul_pos positive (ten b))]
  refine Nat.lt_of_mul_lt_mul_right (a := 10 ^ p) ?_
  calc value * 10 ^ a * 10 ^ p
    _ = value * 10 ^ p * 10 ^ a := by ac_rfl
    _ < 10 ^ length * unit * 10 ^ a := Nat.mul_lt_mul_of_pos_right digits (ten a)
    _ = 10 ^ (length + a) * unit := by
      rw [Nat.pow_add]
      ac_rfl
    _ ≤ 10 ^ (17 + p + b) * unit := Nat.mul_le_mul_right _ (Nat.pow_le_pow_right (by decide) grid)
    _ = 10 ^ 17 * (unit * 10 ^ b) * 10 ^ p := by
      rw [Nat.pow_add, Nat.pow_add]
      ac_rfl

/-- On the grids that are tried, what is found has at most eighteen digits. -/
theorem onGrid?_lt (positive : 0 < r.unit) {k : Int} (grid : r.magnitude - 16 ≤ k) {c : Nat}
    (found : r.onGrid? k = some c) : c < 10 ^ 18 := by
  have some? := Nat.length_toDigits_pos (b := 10) (n := r.value * Nat.pow 10 340 / r.unit)
  have digits := (Nat.length_toDigits_le_iff (by decide) some?).1 (Nat.le_refl _)
  rw [magnitude] at grid
  have below := quotient_lt (a := (-k).toNat) (b := k.toNat) positive digits (by omega)
  have near := onGrid?_le found
  omega

theorem search_reduced (positive : 0 < r.unit) {count : Nat} {k : Int} (grid : r.magnitude - 17 ≤ k - count) :
    (r.search count k).1 % 10 = 0 → (r.search count k).1 = 0 := by
  induction count generalizing k with
  | zero => exact fun _ => rfl
  | succ count ih =>
    rw [search]
    split
    · next c found => exact dropZeros_reduced (onGrid?_lt positive (by omega) found)
    · exact ih (by omega)

end Rounding

theorem isReduced_shortest (negative : Bool) (significand : Nat) (exponent : Int) :
    (shortest negative significand exponent).IsReduced := by
  rw [shortest]
  split
  · exact fun _ => rfl
  · exact Rounding.search_reduced (Nat.pow_pos (by decide)) (by omega)

/-! ## Texts of binary64 numbers -/

namespace Binary64

/-- The text of a number without its sign. -/
def body (style : NumberStyle) : Binary64 → List Char
  | .nan => style.notNumber.toList
  | .infinite _ => style.infinity.toList
  | .finite negative s e => ((shortest negative s e).spelling style).chars style

theorem toList_text (style : NumberStyle) (x : Binary64) :
    (x.text style).toList = (if x.isNegative then ['-'] else []) ++ x.body style := by
  cases x with
  | nan => rfl
  | infinite negative => cases negative <;> simp [text, isNegative, body]
  | finite negative s e =>
    have sign : (shortest negative s e).negative = negative := by
      rw [shortest]
      split <;> rfl
    rw [text, Decimal.toList_text, sign]
    rfl

/-- Whether two numbers are both none, both infinite, or both finite with the same shortest decimal. -/
def SameBody : Binary64 → Binary64 → Prop
  | .nan, .nan => True
  | .infinite _, .infinite _ => True
  | .finite negative s e, .finite negative' s' e' => (shortest negative s e).Same (shortest negative' s' e')
  | _, _ => False

variable {style : NumberStyle}

theorem chars_start (d : Decimal) (style : NumberStyle) :
    ∃ c cs, (d.spelling style).chars style = c :: cs ∧ c.isDigit = true := by
  have proper := d.isProper_spelling style
  obtain ⟨c, cs, start⟩ := List.exists_cons_of_ne_nil proper.start
  have digit := proper.whole c (by rw [start]; exact List.mem_cons_self)
  rw [Spelling.chars, start, List.cons_append]
  exact ⟨c, _, rfl, digit⟩

theorem body_eq_iff (clear : style.IsClear) (x y : Binary64) : x.body style = y.body style ↔ x.SameBody y := by
  have decimal (d : Decimal) {word : List Char} (word? : isWord word = true) :
      word ≠ (d.spelling style).chars style := by
    obtain ⟨c, cs, start, digit⟩ := chars_start d style
    rintro rfl
    rw [start, isWord, digit] at word?
    cases word?
  have words : style.notNumber.toList ≠ style.infinity.toList := fun same => clear.words (String.toList_inj.1 same)
  cases x with
  | nan =>
    cases y with
    | nan => exact iff_of_true rfl trivial
    | infinite n => exact iff_of_false words id
    | finite n s e => exact iff_of_false (decimal _ clear.notNumber) id
  | infinite m =>
    cases y with
    | nan => exact iff_of_false words.symm id
    | infinite n => exact iff_of_true rfl trivial
    | finite n s e => exact iff_of_false (decimal _ clear.infinity) id
  | finite m s e =>
    cases y with
    | nan => exact iff_of_false (decimal _ clear.notNumber).symm id
    | infinite n => exact iff_of_false (decimal _ clear.infinity).symm id
    | finite n s' e' =>
      refine Iff.trans ⟨fun same => ?_, fun same => ?_⟩
        (Decimal.spelling_eq_iff clear (isReduced_shortest m s e) (isReduced_shortest n s' e'))
      · exact Spelling.chars_inj clear (Decimal.isProper_spelling _ style) (Decimal.isProper_spelling _ style) same
      · exact congrArg (Spelling.chars style) same

/-- No body starts with a sign. -/
theorem body_start (clear : style.IsClear) (x : Binary64) : ∀ c ∈ (x.body style).head?, c ≠ '-' := by
  have word {cs : List Char} (word? : isWord cs = true) : ∀ c ∈ cs.head?, c ≠ '-' := by
    rintro c start rfl
    cases cs with
    | nil => cases start
    | cons d cs =>
      cases start
      rw [isWord] at word?
      exact absurd word? (by decide)
  cases x with
  | nan => exact word clear.notNumber
  | infinite n => exact word clear.infinity
  | finite n s e =>
    obtain ⟨c, cs, start, digit⟩ := chars_start (shortest n s e) style
    rw [body, start]
    rintro d ⟨⟩ rfl
    exact absurd digit (by decide)

/-- Two numbers have the same text in a clear style if and only if they have the same sign and the same body. -/
theorem text_eq_iff (clear : style.IsClear) (x y : Binary64) :
    x.text style = y.text style ↔ x.isNegative = y.isNegative ∧ x.SameBody y := by
  rw [← String.toList_inj, toList_text, toList_text, ← body_eq_iff clear]
  have start := body_start clear x
  have start' := body_start clear y
  cases x.isNegative <;> cases y.isNegative
  · simp
  · refine iff_of_false (fun same => ?_) (fun same => Bool.noConfusion same.1)
    exact start '-' (by rw [show x.body style = '-' :: y.body style from same]; rfl) rfl
  · refine iff_of_false (fun same => ?_) (fun same => Bool.noConfusion same.1)
    exact start' '-' (by rw [show y.body style = '-' :: x.body style from same.symm]; rfl) rfl
  · simp

/-- Numbers have the same text in facts if and only if they have the same in messages. -/
theorem text_factStyle_eq_iff (x y : Binary64) :
    x.text factStyle = y.text factStyle ↔ x.text messageStyle = y.text messageStyle := by
  rw [text_eq_iff isClear_factStyle, text_eq_iff isClear_messageStyle]

/-- The text of a number in a fact: a word, or digits with a point among them, behind a sign or none. -/
theorem body_factStyle (x : Binary64) :
    x.body factStyle = "NaN".toList ∨ x.body factStyle = "Infinity".toList ∨
      ∃ c cs, x.body factStyle = c :: cs ∧ c.isDigit = true ∧ '.' ∈ cs := by
  cases x with
  | nan => exact Or.inl rfl
  | infinite n => exact Or.inr (Or.inl rfl)
  | finite n s e =>
    obtain ⟨c, cs, start, digit⟩ := chars_start (shortest n s e) factStyle
    refine Or.inr (Or.inr ⟨c, cs, start, digit, ?_⟩)
    have point : '.' ∈ ((shortest n s e).spelling factStyle).chars factStyle := by
      have fraction : ((shortest n s e).spelling factStyle).fraction ≠ [] := Decimal.fraction_ne_nil rfl _
      simp [Spelling.chars, Spelling.fractionChars, fraction]
    rw [start] at point
    refine (List.mem_cons.1 point).resolve_left ?_
    rintro rfl
    exact absurd digit (by decide)

end Binary64

end ProgramFacts.Numeral
