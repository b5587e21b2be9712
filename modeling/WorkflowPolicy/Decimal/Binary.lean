/-!
# Binary floating point

`Binary64` is the set of values of the 64-bit binary format, as exact data: a finite value is
`± mantissa · 2 ^ exponent`, and nothing is computed in machine arithmetic.

A finite value has one form only. Its mantissa has at most 53 bits; it has exactly 53 unless
the exponent is the least one, `-1074`. So equality of values is equality of the data, save
that the two zeros are kept apart.

`Binary64.ofRatio` rounds a quotient of natural numbers to the nearest value, an exact half to
the even mantissa, and what is too large to infinity.
-/

namespace WorkflowPolicy.Decimal

/-- A value of the 64-bit binary format. -/
inductive Binary64 where
  /-- `mantissa · 2 ^ exponent`, negated if `negative`. -/
  | finite (negative : Bool) (mantissa : Nat) (exponent : Int)
  /-- One of the two infinities. -/
  | infinite (negative : Bool)
  /-- Not a number. -/
  | nan
  deriving DecidableEq, Repr

namespace Binary64

/-- The bits of a mantissa. -/
def mantissaBits : Nat := 53

/-- The least exponent. -/
def minExponent : Int := -1074

/-- The greatest exponent. -/
def maxExponent : Int := 971

/-- Zero, of either sign. -/
def zero (negative : Bool) : Binary64 := .finite negative 0 minExponent

/-- Neither infinite nor `nan`. -/
def isFinite : Binary64 → Bool
  | .finite .. => true
  | _ => false

/-- Equality of numbers: the two zeros are equal, and so is every `nan` to itself. -/
def sameNumber : Binary64 → Binary64 → Bool
  | .finite _ 0 _, .finite _ 0 _ => true
  | x, y => x == y

/-- `n / d` without its fraction, rounded to nearest with an exact half to the even side. -/
def roundDiv (n d : Nat) : Nat :=
  let q := n / d
  let r := n % d
  if 2 * r < d then q
  else if d < 2 * r then q + 1
  else if q % 2 = 0 then q else q + 1

/-- `n / d` in units of `2 ^ e`, as a numerator and a denominator. -/
def inUnits (n d : Nat) (e : Int) : Nat × Nat :=
  if 0 ≤ e then (n, d * Nat.pow 2 e.toNat) else (n * Nat.pow 2 (-e).toNat, d)

/-- The exponent of the leading bit of the positive quotient `n / d`: the whole number `k` with
`2 ^ k ≤ n / d < 2 ^ (k + 1)`. -/
def leadingExponent (n d : Nat) : Int :=
  let guess : Int := (n.log2 : Int) - (d.log2 : Int)
  let (a, b) := inUnits n d guess
  if b ≤ a then guess else guess - 1

/-- **Rounding** of the quotient `n / d` to the nearest value. -/
def ofRatio (negative : Bool) (n d : Nat) : Binary64 :=
  if n = 0 then zero negative
  else
    let exponent := max (leadingExponent n d - (mantissaBits - 1 : Nat)) minExponent
    let (a, b) := inUnits n d exponent
    let mantissa := roundDiv a b
    let (mantissa, exponent) :=
      if mantissa = Nat.pow 2 mantissaBits then (Nat.pow 2 (mantissaBits - 1), exponent + 1)
      else (mantissa, exponent)
    if maxExponent < exponent then .infinite negative
    else .finite negative mantissa exponent

/-- A power of ten above which every number with a leading digit is infinite. -/
def hugePower : Int := 310

/-- A power of ten below which every number rounds to zero. -/
def tinyPower : Int := -400

/-- **The value nearest to `digits · 10 ^ power`.** Far outside the range of the format the
answer is known without computing the power. -/
def ofDecimal (negative : Bool) (digits : Nat) (power : Int) : Binary64 :=
  let places : Int := (Nat.toDigits 10 digits).length
  if digits = 0 then zero negative
  else if hugePower < power + places then .infinite negative
  else if power + places < tinyPower then zero negative
  else if 0 ≤ power then ofRatio negative (digits * Nat.pow 10 power.toNat) 1
  else ofRatio negative digits (Nat.pow 10 (-power).toNat)

end Binary64

end WorkflowPolicy.Decimal
