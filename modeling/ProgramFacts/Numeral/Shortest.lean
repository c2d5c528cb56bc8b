import ProgramFacts.Numeral.Binary64
import ProgramFacts.Numeral.Decimal

/-!
# The shortest decimal that reads back

Among the decimals that round to a given binary64 number, the one with the fewest digits is taken, and of
those the nearest. The reals that round to `m · 2 ^ q` form an interval around it whose ends belong to it
iff `m` is even; on the grid of decimals with a given number of digits only the two neighbours of the
number need to be tried.
-/

namespace ProgramFacts.Numeral

/-- A positive binary64 number, counted in quarters of its last place, with the interval of the reals that
round to it: `value`, `low` and `high` are to be divided by `unit`. -/
structure Rounding where
  value : Nat
  low : Nat
  high : Nat
  unit : Nat
  /-- Whether the ends of the interval round to the number too. -/
  closed : Bool

/-- The interval around `significand · 2 ^ exponent`. It is narrower below a power of two. -/
def Rounding.of (significand : Nat) (exponent : Int) : Rounding :=
  let up := Nat.pow 2 (exponent - 2).toNat
  { value := 4 * significand * up
    low := (4 * significand - if significand = Nat.pow 2 52 ∧ exponent ≠ -1074 then 1 else 2) * up
    high := (4 * significand + 2) * up
    unit := Nat.pow 2 (2 - exponent).toNat
    closed := significand % 2 == 0 }

/-- Whether `c · 10 ^ k` rounds to the number. -/
def Rounding.holds (r : Rounding) (c : Nat) (k : Int) : Bool :=
  let x := c * Nat.pow 10 k.toNat * r.unit
  let scale := Nat.pow 10 (-k).toNat
  if r.closed then decide (r.low * scale ≤ x) && decide (x ≤ r.high * scale)
  else decide (r.low * scale < x) && decide (x < r.high * scale)

/-- The power of ten that the first digit of the number counts. -/
def Rounding.magnitude (r : Rounding) : Int :=
  ((Nat.toDigits 10 (r.value * Nat.pow 10 340 / r.unit)).length : Int) - 341

/-- The coefficient of a decimal with the last place `10 ^ k` that rounds to the number, the nearer of two,
the even one of two equally near. -/
def Rounding.onGrid? (r : Rounding) (k : Int) : Option Nat :=
  let n := r.value * Nat.pow 10 (-k).toNat
  let d := r.unit * Nat.pow 10 k.toNat
  let below := n / d
  match r.holds below k, r.holds (below + 1) k with
  | true, true => some (divideToEven n d)
  | true, false => some below
  | false, true => some (below + 1)
  | false, false => none

/-- Moves the zeros at the end of the coefficient to the exponent. -/
def dropZeros : Nat → Nat → Int → Nat × Int
  | 0, c, k => (c, k)
  | fuel + 1, c, k => if c % 10 = 0 ∧ c ≠ 0 then dropZeros fuel (c / 10) (k + 1) else (c, k)

/-- Tries the grids from `k` on down, at most `count` of them. -/
def Rounding.search (r : Rounding) : Nat → Int → Nat × Int
  | 0, k => (0, k)
  | count + 1, k =>
    match r.onGrid? k with
    | some c => dropZeros 17 c k
    | none => r.search count (k - 1)

/-- The shortest decimal that rounds to `± significand · 2 ^ exponent`. -/
def shortest (negative : Bool) (significand : Nat) (exponent : Int) : Decimal :=
  if significand = 0 then ⟨negative, 0, 0⟩
  else
    let r := Rounding.of significand exponent
    let (c, k) := r.search 17 r.magnitude
    ⟨negative, c, k⟩

/-- The number as the style writes it. -/
def Binary64.text (style : NumberStyle) : Binary64 → String
  | .nan => style.notNumber
  | .infinite negative => (if negative then "-" else "") ++ style.infinity
  | .finite negative s e => (shortest negative s e).text style

end ProgramFacts.Numeral
