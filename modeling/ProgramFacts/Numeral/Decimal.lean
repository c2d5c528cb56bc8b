/-!
# Decimal numbers and how they are written

A decimal is a sign, a coefficient and a power of ten. Two ways to write one are used: values in messages
switch to an exponent below `10 ^ -4` and from `10 ^ 16` on, values in facts below `10 ^ -3` and from
`10 ^ 7` on.
-/

namespace ProgramFacts.Numeral

/-- The number `± coefficient · 10 ^ exponent`. -/
structure Decimal where
  negative : Bool
  coefficient : Nat
  exponent : Int
deriving DecidableEq

/-- The decimal digits of the coefficient. -/
def Decimal.digits (d : Decimal) : List Char := Nat.toDigits 10 d.coefficient

/-- The power of ten that the first digit counts. -/
def Decimal.magnitude (d : Decimal) : Int := d.exponent + d.digits.length - 1

/-- How numbers are written. -/
structure NumberStyle where
  /-- The least magnitude that is written without an exponent. -/
  least : Int
  /-- The first magnitude above it that is written with an exponent. -/
  limit : Int
  /-- Whether a lone digit in front of an exponent gets a fraction. -/
  fraction : Bool
  mark : Char
  /-- Whether an exponent that is not negative has a sign. -/
  plus : Bool
  /-- The least number of digits of an exponent. -/
  width : Nat
  notNumber : String
  infinity : String

/-- Numbers in messages and in texts made of them. -/
def messageStyle : NumberStyle where
  least := -4
  limit := 16
  fraction := false
  mark := 'e'
  plus := true
  width := 2
  notNumber := "nan"
  infinity := "inf"

/-- Numbers in facts. -/
def factStyle : NumberStyle where
  least := -3
  limit := 7
  fraction := true
  mark := 'E'
  plus := false
  width := 1
  notNumber := "NaN"
  infinity := "Infinity"

/-- The digits with the point where it falls and at least one digit on either side of it. -/
def Decimal.positional (d : Decimal) : List Char :=
  let ds := d.digits
  if 0 ≤ d.exponent then ds ++ List.replicate d.exponent.toNat '0' ++ ['.', '0']
  else
    let places := (-d.exponent).toNat
    if places < ds.length then ds.take (ds.length - places) ++ '.' :: ds.drop (ds.length - places)
    else '0' :: '.' :: List.replicate (places - ds.length) '0' ++ ds

/-- The sign and digits of an exponent. -/
def exponentText (style : NumberStyle) (e : Int) : List Char :=
  (if e < 0 then ['-'] else if style.plus then ['+'] else []) ++
    (Nat.toDigits 10 e.natAbs).leftpad style.width '0'

/-- The first digit, the point and the other digits, and the exponent. -/
def Decimal.scientific (style : NumberStyle) (d : Decimal) : List Char :=
  let rest := d.digits.drop 1
  d.digits.take 1 ++
    (if rest.isEmpty then (if style.fraction then ['.', '0'] else []) else '.' :: rest) ++
    style.mark :: exponentText style d.magnitude

/-- The decimal as the style writes it. -/
def Decimal.text (style : NumberStyle) (d : Decimal) : String :=
  String.ofList ((if d.negative then ['-'] else []) ++
    if style.least ≤ d.magnitude ∧ d.magnitude < style.limit then d.positional else d.scientific style)

end ProgramFacts.Numeral
