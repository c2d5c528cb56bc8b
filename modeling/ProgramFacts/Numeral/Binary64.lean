/-!
# Binary64 numbers

Numbers with a fraction or an exponent are kept as binary64 numbers, rounded to nearest with ties to
even. All arithmetic here is exact, on naturals and integers.
-/

namespace ProgramFacts.Numeral

/-- A binary64 number: not a number, an infinity, or `± significand · 2 ^ exponent`, where either
`2 ^ 52 ≤ significand < 2 ^ 53` and `-1074 ≤ exponent ≤ 971`, or `significand < 2 ^ 52` and
`exponent = -1074`. -/
inductive Binary64
  | nan
  | infinite (negative : Bool)
  | finite (negative : Bool) (significand : Nat) (exponent : Int)
deriving DecidableEq

/-- The quotient to the nearest natural, a half going to the even neighbour. -/
def divideToEven (n d : Nat) : Nat :=
  let q := n / d
  let r := n % d
  if 2 * r < d then q else if d < 2 * r then q + 1 else q + q % 2

/-- The greatest `e` with `2 ^ e ≤ n / d`, for positive `n` and `d`. -/
def floorLog2 (n d : Nat) : Int :=
  let e : Int := n.log2 - d.log2
  if d * Nat.pow 2 e.toNat ≤ n * Nat.pow 2 (-e).toNat then e else e - 1

namespace Binary64

def zero (negative : Bool) : Binary64 := .finite negative 0 (-1074)

/-- The binary64 number nearest to `± n / d`. -/
def round (negative : Bool) (n d : Nat) : Binary64 :=
  if n = 0 then zero negative
  else
    let e := max (floorLog2 n d - 52) (-1074)
    let s := divideToEven (n * Nat.pow 2 (-e).toNat) (d * Nat.pow 2 e.toNat)
    let (s, e) := if s = Nat.pow 2 53 then (Nat.pow 2 52, e + 1) else (s, e)
    if 971 < e then .infinite negative else .finite negative s e

/-- The binary64 number nearest to `± coefficient · 10 ^ exponent`. Powers far out of range are settled
by the number of digits alone. -/
def ofDecimal (negative : Bool) (coefficient : Nat) (exponent : Int) : Binary64 :=
  let magnitude : Int := exponent + (Nat.toDigits 10 coefficient).length
  if coefficient = 0 ∨ magnitude < -330 then zero negative
  else if 400 < magnitude then .infinite negative
  else round negative (coefficient * Nat.pow 10 exponent.toNat) (Nat.pow 10 (-exponent).toNat)

/-- Whether the number is a zero of either sign. -/
def isZero : Binary64 → Bool
  | .finite _ s _ => s == 0
  | _ => false

/-- Whether the two stand for one number; a number that is none stands for itself. -/
def sameNumber (x y : Binary64) : Bool := x == y || (x.isZero && y.isZero)

/-- The number with its fraction cut off, if it is finite. -/
def truncate? : Binary64 → Option Int
  | .finite negative s e =>
    let n : Int := (s * Nat.pow 2 e.toNat / Nat.pow 2 (-e).toNat : Nat)
    some (if negative then -n else n)
  | _ => none

/-- Whether the number is the given integer. -/
def isInt (x : Binary64) (n : Int) : Bool :=
  match x with
  | .finite negative s e =>
    (if negative then -(s * Nat.pow 2 e.toNat : Nat) else (s * Nat.pow 2 e.toNat : Nat) : Int) ==
      n * Int.pow 2 (-e).toNat
  | _ => false

/-- The natural as a binary64 number, unless it is too great. -/
def ofNat? (n : Nat) : Option Binary64 :=
  match round false n 1 with
  | .finite negative s e => some (.finite negative s e)
  | _ => none

def isNegative : Binary64 → Bool
  | .nan => false
  | .infinite negative => negative
  | .finite negative _ _ => negative

/-- A magnitude with its sign. -/
def signed (negative : Bool) (n : Nat) : Int := if negative then -(n : Int) else n

/-- The sum, rounded. A sum that vanishes is negative only if both zeros were. -/
def add (x y : Binary64) : Binary64 :=
  match x, y with
  | .nan, _ => .nan
  | _, .nan => .nan
  | .infinite m, .infinite n => if m = n then .infinite m else .nan
  | .infinite m, _ => .infinite m
  | _, .infinite n => .infinite n
  | .finite m s e, .finite n t f =>
    let least := min e f
    let sum := signed m (s * Nat.pow 2 (e - least).toNat) + signed n (t * Nat.pow 2 (f - least).toNat)
    if sum = 0 then zero (m && n)
    else round (decide (sum < 0)) (sum.natAbs * Nat.pow 2 least.toNat) (Nat.pow 2 (-least).toNat)

/-- The product, rounded. -/
def mul (x y : Binary64) : Binary64 :=
  match x, y with
  | .nan, _ => .nan
  | _, .nan => .nan
  | .finite m s e, .finite n t f => round (m != n) (s * t * Nat.pow 2 (e + f).toNat) (Nat.pow 2 (-(e + f)).toNat)
  | x, y => if x.isZero || y.isZero then .nan else .infinite (x.isNegative != y.isNegative)

/-- The number with the sign turned if asked for. -/
def withSign (negative : Bool) : Binary64 → Binary64
  | .nan => .nan
  | .infinite n => .infinite (n != negative)
  | .finite n s e => .finite (n != negative) s e

end Binary64

end ProgramFacts.Numeral
