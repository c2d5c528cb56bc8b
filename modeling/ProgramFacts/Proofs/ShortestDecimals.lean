import Mathlib.Algebra.Order.Field.Power
import Mathlib.Data.Rat.Cast.Order
import Mathlib.Tactic.FieldSimp
import Mathlib.Tactic.Linarith
import Mathlib.Tactic.NormNum
import Mathlib.Tactic.Positivity
import Mathlib.Tactic.Ring
import ProgramFacts.Proofs.NumberTexts

/-!
# Shortest decimals of binary64 numbers

Every binary64 number but zero has a decimal of at most seventeen digits that rounds to it, so the search for a shortest
one comes to an end. On the grid that is tried last the decimals are less than the interval apart in which a number is
found again, and so one of the two neighbours of the number lies in it. What is found on a grid keeps between the powers
of ten around the number.
-/

namespace ProgramFacts.Numeral

/-! ## Numbers as fractions -/

/-- The decimal as a fraction, its sign apart. -/
def Decimal.size (d : Decimal) : ℚ := d.coefficient * 10 ^ d.exponent

def Decimal.value (d : Decimal) : ℚ := if d.negative then -d.size else d.size

namespace Binary64

/-- The number as a fraction, its sign apart; those that are none or infinite have no size. -/
def size : Binary64 → ℚ
  | .finite _ s e => s * 2 ^ e
  | _ => 0

/-- Whether the significand has all of its bits, or as many as there is room for at the least exponent. -/
def IsProper : Binary64 → Prop
  | .finite _ s e => (2 ^ 52 ≤ s ∧ s < 2 ^ 53 ∧ -1074 ≤ e ∧ e ≤ 971) ∨ (s < 2 ^ 52 ∧ e = -1074)
  | _ => True

instance : (x : Binary64) → Decidable x.IsProper
  | .nan | .infinite _ => instDecidableTrue
  | .finite _ _ _ => inferInstanceAs (Decidable (_ ∨ _))

end Binary64

/-- A power with an integer exponent as a quotient of powers with natural ones. -/
theorem zpow_eq_div {b : ℚ} (positive : 0 < b) (k : Int) : b ^ k = b ^ k.toNat / b ^ (-k).toNat := by
  rw [← zpow_natCast, ← zpow_natCast, ← zpow_sub₀ positive.ne']
  congr 1
  omega

/-- A power of ten counted in places. -/
theorem pow_eq_places {i k : Int} {j : Nat} (same : i = j + k) : (10 : ℚ) ^ i = 10 ^ j * 10 ^ k := by
  rw [same, zpow_add₀ (by norm_num), zpow_natCast]

namespace Rounding

variable {r : Rounding}

/-- What a count of units stands for. -/
def point (r : Rounding) (n : Nat) : ℚ := n / r.unit

/-- The neighbour of the number on a grid that is not above it. -/
def below (r : Rounding) (k : Int) : Nat := r.value * Nat.pow 10 (-k).toNat / (r.unit * Nat.pow 10 k.toNat)

theorem below_neg (n : Nat) : r.below (-n) = r.value * Nat.pow 10 n / r.unit := by
  simp [below]

/-- What is found on a grid is a neighbour of the number that rounds to it. -/
theorem onGrid?_eq_some {k : Int} {c : Nat} (found : r.onGrid? k = some c) :
    r.holds c k = true ∧ (c = r.below k ∨ c = r.below k + 1) := by
  have even (n d : Nat) : divideToEven n d = n / d ∨ divideToEven n d = n / d + 1 := by
    simp only [divideToEven]
    split
    · exact Or.inl rfl
    · split
      · exact Or.inr rfl
      · omega
  simp only [onGrid?] at found
  split at found
  · next first second =>
    cases found
    rcases even (r.value * Nat.pow 10 (-k).toNat) (r.unit * Nat.pow 10 k.toNat) with same | same
    · rw [same]
      exact ⟨first, Or.inl rfl⟩
    · rw [same]
      exact ⟨second, Or.inr rfl⟩
  · next first _ =>
    cases found
    exact ⟨first, Or.inl rfl⟩
  · next _ second =>
    cases found
    exact ⟨second, Or.inr rfl⟩
  · cases found

section Grid

variable (positive : 0 < r.unit)

include positive

theorem point_le_iff {n c : Nat} {k : Int} :
    r.point n ≤ c * 10 ^ k ↔ n * Nat.pow 10 (-k).toNat ≤ c * Nat.pow 10 k.toNat * r.unit := by
  have unit : (0 : ℚ) < r.unit := by exact_mod_cast positive
  have scale : (0 : ℚ) < 10 ^ (-k).toNat := by positivity
  rw [point, zpow_eq_div (by norm_num), ← mul_div_assoc, div_le_div_iff₀ unit scale, Nat.pow_eq, Nat.pow_eq]
  exact_mod_cast Iff.rfl

theorem point_lt_iff {n c : Nat} {k : Int} :
    r.point n < c * 10 ^ k ↔ n * Nat.pow 10 (-k).toNat < c * Nat.pow 10 k.toNat * r.unit := by
  have unit : (0 : ℚ) < r.unit := by exact_mod_cast positive
  have scale : (0 : ℚ) < 10 ^ (-k).toNat := by positivity
  rw [point, zpow_eq_div (by norm_num), ← mul_div_assoc, div_lt_div_iff₀ unit scale, Nat.pow_eq, Nat.pow_eq]
  exact_mod_cast Iff.rfl

/-- What rounds to the number is in the interval. -/
theorem le_high_of_holds {c : Nat} {k : Int} (rounds : r.holds c k = true) :
    r.point r.low ≤ c * 10 ^ k ∧ c * 10 ^ k ≤ r.point r.high := by
  have high : c * 10 ^ k ≤ r.point r.high ↔
      c * Nat.pow 10 k.toNat * r.unit ≤ r.high * Nat.pow 10 (-k).toNat := by
    rw [← not_lt, point_lt_iff positive, Nat.not_lt]
  rw [point_le_iff positive, high]
  simp only [holds] at rounds
  split at rounds
  · simp only [Bool.and_eq_true, decide_eq_true_eq] at rounds
    exact rounds
  · simp only [Bool.and_eq_true, decide_eq_true_eq] at rounds
    exact ⟨rounds.1.le, rounds.2.le⟩

/-- What is inside of the interval rounds to the number. -/
theorem holds_of_inside {c : Nat} {k : Int} (low : r.point r.low < c * 10 ^ k) (high : c * 10 ^ k < r.point r.high) :
    r.holds c k = true := by
  rw [point_lt_iff positive] at low
  rw [← not_le, point_le_iff positive, Nat.not_le] at high
  simp only [holds]
  split
  · simp only [Bool.and_eq_true, decide_eq_true_eq]
    exact ⟨low.le, high.le⟩
  · simp only [Bool.and_eq_true, decide_eq_true_eq]
    exact ⟨low, high⟩

theorem below_le (k : Int) : (r.below k : ℚ) * 10 ^ k ≤ r.point r.value := by
  rw [← not_lt, point_lt_iff positive, Nat.not_lt, below, Nat.mul_assoc, Nat.mul_comm (Nat.pow 10 k.toNat)]
  exact Nat.div_mul_le_self _ _

theorem lt_above (k : Int) : r.point r.value < (r.below k + 1 : ℕ) * 10 ^ k := by
  have divisor : 0 < r.unit * Nat.pow 10 k.toNat := Nat.mul_pos positive (Nat.pow_pos (by decide))
  rw [point_lt_iff positive, below, Nat.mul_assoc, Nat.mul_comm (Nat.pow 10 k.toNat), Nat.add_mul, Nat.one_mul]
  exact Nat.lt_div_mul_add divisor

/-- A grid that is finer than the interval has something in it. -/
theorem onGrid?_of_fine {k : Int} (left : r.point r.low < r.point r.value) (right : r.point r.value < r.point r.high)
    (fine : (10 : ℚ) ^ k < r.point r.high - r.point r.low) : r.onGrid? k ≠ none := by
  have under := below_le positive (r := r) k
  have above := lt_above positive (r := r) k
  have either : r.holds (r.below k) k = true ∨ r.holds (r.below k + 1) k = true := by
    by_cases inside : r.point r.low < r.below k * 10 ^ k
    · exact Or.inl (holds_of_inside positive inside (under.trans_lt right))
    · refine Or.inr (holds_of_inside positive (left.trans above) ?_)
      push_cast at above ⊢
      linarith
  simp only [onGrid?]
  split
  · simp
  · simp
  · simp
  · next first second =>
    rcases either with here | here
    · rw [below, first] at here
      cases here
    · rw [below, second] at here
      cases here

end Grid

/-! ## The interval of a number -/

section Interval

variable (s : Nat) (e : Int)

theorem unit_pos : 0 < (of s e).unit := Nat.pow_pos (by decide)

/-- The counts are in quarters of the last place. -/
theorem point_of (n : Nat) : (of s e).point (n * Nat.pow 2 (e - 2).toNat) = n / 4 * 2 ^ e := by
  have quarters : (2 : ℚ) ^ e = 4 * 2 ^ (e - 2) := by
    rw [zpow_sub₀ (by norm_num)]
    norm_num
    ring
  have back : 2 - e = -(e - 2) := by omega
  simp only [point, of, Nat.pow_eq]
  rw [quarters, zpow_eq_div (by norm_num), back]
  push_cast
  ring

theorem point_value : (of s e).point (of s e).value = s * 2 ^ e := by
  have value : (of s e).value = (4 * s) * Nat.pow 2 (e - 2).toNat := rfl
  rw [value, point_of]
  push_cast
  ring

theorem point_high : (of s e).point (of s e).high = (s + 1 / 2) * 2 ^ e := by
  have high : (of s e).high = (4 * s + 2) * Nat.pow 2 (e - 2).toNat := rfl
  rw [high, point_of]
  push_cast
  ring

/-- The interval reaches down by half of the last place, or by a quarter where the places below are finer. -/
theorem point_low (nonzero : s ≠ 0) :
    (of s e).point (of s e).low = (s - 1 / 2) * 2 ^ e ∨
      s = 2 ^ 52 ∧ (of s e).point (of s e).low = (s - 1 / 4) * 2 ^ e := by
  by_cases finer : s = Nat.pow 2 52 ∧ e ≠ -1074
  · have low : (of s e).low = (4 * s - 1) * Nat.pow 2 (e - 2).toNat := by simp only [of, if_pos finer]
    refine Or.inr ⟨finer.1, ?_⟩
    rw [low, point_of, Nat.cast_sub (by omega)]
    push_cast
    ring
  · have low : (of s e).low = (4 * s - 2) * Nat.pow 2 (e - 2).toNat := by simp only [of, if_neg finer]
    refine Or.inl ?_
    rw [low, point_of, Nat.cast_sub (by omega)]
    push_cast
    ring

end Interval

/-! ## The magnitude of a number -/

/-- A natural is between the powers of ten that go with the number of its digits. -/
theorem pow_le_of_digits {n : Nat} (nonzero : n ≠ 0) :
    10 ^ ((Nat.toDigits 10 n).length - 1) ≤ n ∧ n < 10 ^ (Nat.toDigits 10 n).length := by
  have some? := Nat.length_toDigits_pos (b := 10) (n := n)
  refine ⟨?_, (Nat.length_toDigits_le_iff (by decide) some?).1 (Nat.le_refl _)⟩
  by_cases one : (Nat.toDigits 10 n).length = 1
  · rw [one]
    omega
  · have more : ¬(Nat.toDigits 10 n).length ≤ (Nat.toDigits 10 n).length - 1 := by omega
    rwa [Nat.length_toDigits_le_iff (by decide) (by omega), Nat.not_lt] at more

/-- How many decimal places the magnitude is counted with; no number needs more. -/
def places : Nat := 340

theorem magnitude_eq (r : Rounding) :
    r.magnitude = ((Nat.toDigits 10 (r.value * Nat.pow 10 places / r.unit)).length : Int) - (places + 1) := by
  have known : 340 = places := rfl
  rw [magnitude, known]
  omega

/-- The magnitude of a number that is not too small for it. -/
theorem magnitude_bounds (positive : 0 < r.unit) (large : (10 : ℚ) ^ (-places : Int) ≤ r.point r.value) :
    (10 : ℚ) ^ r.magnitude ≤ r.point r.value ∧ r.point r.value < 10 ^ (r.magnitude + 1) := by
  have under := below_le positive (-places)
  have above := lt_above positive (-places)
  rw [below_neg] at under above
  rw [magnitude_eq]
  generalize r.value * Nat.pow 10 places / r.unit = n at under above ⊢
  have nonzero : n ≠ 0 := by
    rintro rfl
    rw [Nat.zero_add, Nat.cast_one, one_mul] at above
    exact absurd large above.not_ge
  obtain ⟨least, greatest⟩ := pow_le_of_digits nonzero
  have some? := Nat.length_toDigits_pos (b := 10) (n := n)
  have place : (0 : ℚ) ≤ 10 ^ (-places : Int) := (zpow_pos (by norm_num) _).le
  constructor
  · rw [pow_eq_places (k := -places) (j := (Nat.toDigits 10 n).length - 1) (by omega)]
    refine le_trans (mul_le_mul_of_nonneg_right ?_ place) under
    exact_mod_cast least
  · rw [pow_eq_places (k := -places) (j := (Nat.toDigits 10 n).length) (by omega)]
    refine above.trans_le (mul_le_mul_of_nonneg_right ?_ place)
    exact_mod_cast greatest

/-! ## The search -/

/-- The search ends on one of its grids if there is something on the last. -/
theorem search_found {count : Nat} {k : Int} (last : r.onGrid? (k - count) ≠ none) :
    ∃ c j, r.onGrid? j = some c ∧ k - count ≤ j ∧ j ≤ k ∧ r.search (count + 1) k = dropZeros 17 c j := by
  induction count generalizing k with
  | zero =>
    obtain ⟨c, found⟩ := Option.ne_none_iff_exists'.1 last
    rw [Int.natCast_zero, Int.sub_zero] at found
    exact ⟨c, k, found, by omega, le_rfl, by rw [search, found]⟩
  | succ count ih =>
    rw [search]
    cases found : r.onGrid? k with
    | some c => exact ⟨c, k, found, by omega, le_rfl, rfl⟩
    | none =>
      have later : r.onGrid? (k - 1 - count) ≠ none := by
        have same : k - 1 - count = k - (count + 1 : ℕ) := by omega
        rwa [same]
      obtain ⟨c, j, there, low, high, same⟩ := ih later
      exact ⟨c, j, there, by omega, by omega, same⟩

/-- Zeros move from the coefficient to the exponent without a change of the number. -/
theorem dropZeros_size (fuel c : Nat) (k : Int) :
    ((dropZeros fuel c k).1 : ℚ) * 10 ^ (dropZeros fuel c k).2 = c * 10 ^ k := by
  induction fuel generalizing c k with
  | zero => rfl
  | succ fuel ih =>
    rw [dropZeros]
    split
    · next zero =>
      obtain ⟨b, rfl⟩ := Nat.dvd_of_mod_eq_zero zero.1
      rw [ih, Nat.mul_div_cancel_left b (by decide), zpow_add_one₀ (by norm_num)]
      push_cast
      ring
    · rfl

theorem dropZeros_le (fuel c : Nat) (k : Int) : (dropZeros fuel c k).1 ≤ c := by
  induction fuel generalizing c k with
  | zero => exact le_rfl
  | succ fuel ih =>
    rw [dropZeros]
    split
    · exact (ih _ _).trans (Nat.div_le_self c 10)
    · exact le_rfl

/-- What is found on a grid keeps between the powers of ten around the number. -/
theorem onGrid?_bounds (positive : 0 < r.unit) {m j : Int} (least : (10 : ℚ) ^ m ≤ r.point r.value)
    (limit : r.point r.value < 10 ^ (m + 1)) (grid : j ≤ m) {c : Nat} (found : r.onGrid? j = some c) :
    10 ^ (m - j).toNat ≤ c ∧ c ≤ 10 ^ ((m - j).toNat + 1) := by
  have under := below_le positive (r := r) j
  have above := lt_above positive (r := r) j
  have place : (0 : ℚ) < 10 ^ j := zpow_pos (by norm_num) _
  rw [pow_eq_places (k := j) (j := (m - j).toNat) (by omega)] at least
  rw [pow_eq_places (k := j) (j := (m - j).toNat + 1) (by omega)] at limit
  have first : 10 ^ (m - j).toNat < r.below j + 1 := by
    exact_mod_cast lt_of_mul_lt_mul_right (least.trans_lt above) place.le
  have second : r.below j < 10 ^ ((m - j).toNat + 1) := by
    exact_mod_cast lt_of_mul_lt_mul_right (under.trans_lt limit) place.le
  rcases (onGrid?_eq_some found).2 with rfl | rfl <;> omega

end Rounding

/-! ## The shortest decimal -/

section Shortest

open Rounding

variable {negative : Bool} {s : Nat} {e : Int} (proper : (Binary64.finite negative s e).IsProper) (nonzero : s ≠ 0)

include proper

theorem significand_lt : s < 2 ^ 53 := by
  rcases proper with ⟨-, few, -⟩ | ⟨few, -⟩ <;> omega

include nonzero

theorem pow_le_size : (10 : ℚ) ^ (-places : Int) ≤ s * 2 ^ e := by
  have least : -1074 ≤ e := by
    rcases proper with ⟨-, -, least, -⟩ | ⟨-, same⟩
    · exact least
    · exact same.ge
  have some? : (1 : ℚ) ≤ s := by exact_mod_cast Nat.one_le_iff_ne_zero.2 nonzero
  have naturals : (2 : ℚ) ^ 1074 ≤ 10 ^ places := by
    calc (2 : ℚ) ^ 1074
      _ ≤ 2 ^ (32 * 34) := pow_le_pow_right₀ (by norm_num) (by norm_num)
      _ = (2 ^ 32) ^ 34 := pow_mul _ _ _
      _ ≤ (10 ^ 10) ^ 34 := pow_le_pow_left₀ (by norm_num) (by norm_num) _
      _ = 10 ^ (10 * 34) := (pow_mul _ _ _).symm
  have powers : (10 : ℚ) ^ (-places : Int) ≤ 2 ^ (-1074 : Int) := by
    rw [zpow_neg, zpow_neg, zpow_natCast]
    exact inv_anti₀ (by positivity) (by exact_mod_cast naturals)
  calc (10 : ℚ) ^ (-places : Int)
    _ ≤ 2 ^ (-1074 : Int) := powers
    _ ≤ 2 ^ e := zpow_le_zpow_right₀ (by norm_num) least
    _ ≤ s * 2 ^ e := le_mul_of_one_le_left (zpow_pos (by norm_num) _).le some?

/-- The last of seventeen grids is finer than the interval. -/
theorem pow_lt_interval {m : Int} (least : (10 : ℚ) ^ m ≤ s * 2 ^ e) :
    (10 : ℚ) ^ (m - 16) < (of s e).point (of s e).high - (of s e).point (of s e).low := by
  have unit : (0 : ℚ) < 2 ^ e := zpow_pos (by norm_num) _
  have few : (s : ℚ) < 2 ^ 53 := by exact_mod_cast significand_lt proper
  have sixteen : (10 : ℚ) ^ (m - 16) = 10 ^ m / 10 ^ 16 := by
    rw [zpow_sub₀ (by norm_num)]
    norm_num
  rw [sixteen, point_high, div_lt_iff₀ (by norm_num)]
  rcases point_low s e nonzero with low | ⟨rfl, low⟩
  · rw [low]
    nlinarith
  · rw [low]
    push_cast at *
    nlinarith

/-- What is known of the shortest decimal: it is not less than the power of ten that the number is counted from, no more
than half of the last place away from the number, and has no more than seventeen digits. -/
theorem shortest_bounds :
    ∃ m : Int, ((s * 2 ^ e : ℚ) < 10 ^ (m + 1) ∧ (10 : ℚ) ^ m ≤ (shortest negative s e).size) ∧
      ((s - 1 / 2) * 2 ^ e ≤ (shortest negative s e).size ∧ (shortest negative s e).size ≤ (s + 1 / 2) * 2 ^ e) ∧
      (shortest negative s e).coefficient < 10 ^ 17 := by
  have positive := unit_pos s e
  have value := point_value s e
  have unit : (0 : ℚ) < 2 ^ e := zpow_pos (by norm_num) _
  have bounds := magnitude_bounds positive (by rw [value]; exact pow_le_size proper nonzero)
  rw [value] at bounds
  have low : (s - 1 / 2) * 2 ^ e ≤ (of s e).point (of s e).low ∧ (of s e).point (of s e).low < s * 2 ^ e := by
    rcases point_low s e nonzero with low | ⟨-, low⟩ <;> rw [low] <;> constructor <;> nlinarith
  have high := point_high s e
  have last : (of s e).onGrid? ((of s e).magnitude - (16 : ℕ)) ≠ none := by
    refine onGrid?_of_fine positive (by rw [value]; exact low.2) (by rw [value, high]; nlinarith) ?_
    exact pow_lt_interval proper nonzero bounds.1
  obtain ⟨c, j, found, near, grid, same⟩ := search_found last
  have shortest_eq : shortest negative s e = ⟨negative, (dropZeros 17 c j).1, (dropZeros 17 c j).2⟩ := by
    rw [shortest, if_neg nonzero, ← same]
  have size : (shortest negative s e).size = c * 10 ^ j := by
    rw [Decimal.size, shortest_eq, dropZeros_size]
  rw [← value] at bounds
  obtain ⟨least, most⟩ := onGrid?_bounds positive bounds.1 bounds.2 grid found
  have inside := le_high_of_holds positive (onGrid?_eq_some found).1
  rw [value] at bounds
  refine ⟨(of s e).magnitude, ⟨bounds.2, ?_⟩, ?_, ?_⟩
  · rw [size, pow_eq_places (k := j) (j := ((of s e).magnitude - j).toNat) (by omega)]
    exact mul_le_mul_of_nonneg_right (by exact_mod_cast least) (zpow_pos (by norm_num) _).le
  · rw [size, ← high]
    exact ⟨low.1.trans inside.1, inside.2⟩
  · have few : (shortest negative s e).coefficient ≤ 10 ^ 17 := by
      rw [shortest_eq]
      calc (dropZeros 17 c j).1
        _ ≤ c := dropZeros_le 17 c j
        _ ≤ 10 ^ (((of s e).magnitude - j).toNat + 1) := most
        _ ≤ 10 ^ 17 := Nat.pow_le_pow_right (by decide) (by omega)
    refine lt_of_le_of_ne few fun all => ?_
    have reduced := isReduced_shortest negative s e
    rw [Decimal.IsReduced, all] at reduced
    exact absurd (reduced (by decide)) (by decide)

/-- The shortest decimal of a number is no zero. -/
theorem coefficient_shortest : (shortest negative s e).coefficient ≠ 0 := by
  obtain ⟨m, ⟨-, least⟩, -⟩ := shortest_bounds proper nonzero
  intro zero
  rw [Decimal.size, zero, Nat.cast_zero, zero_mul] at least
  exact absurd least (zpow_pos (by norm_num) _).not_ge

omit nonzero in
/-- Below a limit that numbers have a place for, there is no number whose interval reaches the limit: those with smaller
places are far below it, and those with larger ones are not below it at all. -/
theorem interval_lt {limit : ℚ} {f : Int} (place : -1074 ≤ f) (far : 2 ^ 53 * 2 ^ (f - 1) ≤ limit)
    (above : limit ≤ 2 ^ 52 * 2 ^ (f + 1)) (near : ∀ n : Nat, (n : ℚ) * 2 ^ f < limit → (n + 1 / 2) * 2 ^ f < limit)
    (less : (s : ℚ) * 2 ^ e < limit) : ((s : ℚ) + 1 / 2) * 2 ^ e < limit := by
  rcases lt_trichotomy e f with small | rfl | large
  · have few : (s : ℚ) + 1 / 2 < 2 ^ 53 := by
      have cast : (s : ℚ) + 1 ≤ 2 ^ 53 := by exact_mod_cast significand_lt proper
      linarith
    calc ((s : ℚ) + 1 / 2) * 2 ^ e
      _ < 2 ^ 53 * 2 ^ e := mul_lt_mul_of_pos_right few (zpow_pos (by norm_num) _)
      _ ≤ 2 ^ 53 * 2 ^ (f - 1) := by
        refine mul_le_mul_of_nonneg_left (zpow_le_zpow_right₀ (by norm_num) (by omega)) (by norm_num)
      _ ≤ limit := far
  · exact near s less
  · have many : (2 : ℚ) ^ 52 ≤ s := by
      have many : 2 ^ 52 ≤ s := by
        rcases proper with ⟨many, -⟩ | ⟨-, least⟩ <;> omega
      exact_mod_cast many
    have reached : limit ≤ s * 2 ^ e := by
      refine above.trans (mul_le_mul many ?_ (zpow_pos (by norm_num) _).le (by positivity))
      exact zpow_le_zpow_right₀ (by norm_num) (by omega)
    exact absurd less reached.not_gt

/-- The shortest decimal is below a power of ten if and only if the number is, unless the power rounds to a number below
it. -/
theorem size_shortest_lt_iff {j : Int} (apart : (s : ℚ) * 2 ^ e < 10 ^ j → ((s : ℚ) + 1 / 2) * 2 ^ e < 10 ^ j) :
    (shortest negative s e).size < 10 ^ j ↔ (s : ℚ) * 2 ^ e < 10 ^ j := by
  obtain ⟨m, ⟨limit, least⟩, ⟨-, high⟩, -⟩ := shortest_bounds proper nonzero
  refine ⟨fun less => ?_, fun less => high.trans_lt (apart less)⟩
  by_contra reached
  have above : j ≤ m := by
    have order := (not_lt.1 reached).trans_lt limit
    have order := (zpow_lt_zpow_iff_right₀ (by norm_num)).1 order
    omega
  have grown : (10 : ℚ) ^ j ≤ 10 ^ m := zpow_le_zpow_right₀ (by norm_num) above
  linarith

omit proper nonzero in
/-- A thousandth is no binary64 number; the nearest one is above it, and the next below it is most of a place away. -/
theorem interval_lt_thousandth {n : Nat} (less : (n : ℚ) * 2 ^ (-62 : Int) < 10 ^ (-3 : Int)) :
    ((n : ℚ) + 1 / 2) * 2 ^ (-62 : Int) < 10 ^ (-3 : Int) := by
  have unit : (2 : ℚ) ^ (-62 : Int) = 1 / 4611686018427387904 := by norm_num
  have thousandth : (10 : ℚ) ^ (-3 : Int) = 1 / 1000 := by norm_num
  rw [unit, thousandth, mul_one_div, div_lt_div_iff₀ (by norm_num) (by norm_num), one_mul] at less ⊢
  have few : n < 4611686018427388 := by
    by_contra more
    have cast : (4611686018427388 : ℚ) ≤ n := by exact_mod_cast not_lt.1 more
    linarith
  have cast : (n : ℚ) + 1 ≤ 4611686018427388 := by exact_mod_cast Nat.succ_le_of_lt few
  linarith

omit proper nonzero in
/-- Ten million is a binary64 number, and the next below it is a place away. -/
theorem interval_lt_tenMillion {n : Nat} (less : (n : ℚ) * 2 ^ (-29 : Int) < 10 ^ (7 : Int)) :
    ((n : ℚ) + 1 / 2) * 2 ^ (-29 : Int) < 10 ^ (7 : Int) := by
  have unit : (2 : ℚ) ^ (-29 : Int) = 1 / 2 ^ 29 := by norm_num
  have tenMillion : (10 : ℚ) ^ (7 : Int) = 10 ^ 7 := by norm_num
  rw [unit, tenMillion, mul_one_div, div_lt_iff₀ (by positivity)] at less ⊢
  have cast : (n : ℚ) + 1 ≤ 10 ^ 7 * 2 ^ 29 := by
    have whole : n + 1 ≤ 10 ^ 7 * 2 ^ 29 := by exact_mod_cast less
    exact_mod_cast whole
  linarith

/-- The shortest decimal is below a thousandth, or below ten million, if and only if the number is. -/
theorem size_shortest_lt :
    ((shortest negative s e).size < 10 ^ (-3 : Int) ↔ (s : ℚ) * 2 ^ e < 10 ^ (-3 : Int)) ∧
      ((shortest negative s e).size < 10 ^ (7 : Int) ↔ (s : ℚ) * 2 ^ e < 10 ^ (7 : Int)) :=
  ⟨size_shortest_lt_iff proper nonzero
      (interval_lt proper (by decide) (by norm_num) (by norm_num) fun _ => interval_lt_thousandth),
    size_shortest_lt_iff proper nonzero
      (interval_lt proper (by decide) (by norm_num) (by norm_num) fun _ => interval_lt_tenMillion)⟩

end Shortest

end ProgramFacts.Numeral
