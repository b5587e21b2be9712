import WorkflowPolicy.Decimal.Binary

/-!
# Shortest decimals

Which decimal digits stand for a binary value: the fewest that read back as the value, and of
those the nearest to it.

A decimal reads back as `m · 2 ^ q` if it lies in the interval of the numbers that round to it.
The interval reaches half a unit to either side, a quarter only below a mantissa that is a power
of two, and it has its two ends exactly if `m` is even. Decimals with the same power of ten lie
on a grid; `shortest` walks from coarse grids to fine ones and stops at the first that has a
point in the interval. If any point of a grid lies in the interval then so does one of the two
neighbours of the value on that grid, so only these two are looked at.
-/

namespace WorkflowPolicy.Decimal

/-- The decimal `digits · 10 ^ power`. -/
structure Scaled where
  digits : Nat
  power : Int
  deriving DecidableEq, Repr

namespace Shortest

/-- The numbers that round to a value, in quarters of its last place: between `low` and `high`,
around `mid`. -/
structure Interval where
  low : Nat
  mid : Nat
  high : Nat
  /-- Do the two ends belong to it? -/
  closed : Bool
  /-- The quarters are of size `2 ^ exponent`. -/
  exponent : Int

/-- The interval of `m · 2 ^ q`. -/
def interval (m : Nat) (q : Int) : Interval where
  low := if m = Nat.pow 2 52 ∧ Binary64.minExponent < q then 4 * m - 1 else 4 * m - 2
  mid := 4 * m
  high := 4 * m + 2
  closed := m % 2 == 0
  exponent := q - 2

/-- The factors `a` and `b` for which `n · 10 ^ p` and `x · 2 ^ e` compare as `n * a` and
`x * b` do. -/
def factors (p e : Int) : Nat × Nat :=
  (Nat.pow 10 p.toNat * Nat.pow 2 (-e).toNat, Nat.pow 2 e.toNat * Nat.pow 10 (-p).toNat)

/-- Of the two neighbours of the value on the grid of `10 ^ p` the one that lies in the
interval; of two the nearer, and of two equally near the even one. -/
def onGrid (i : Interval) (p : Int) : Option Nat :=
  let (a, b) := factors p i.exponent
  let below := i.mid * b / a
  let inside (n : Nat) : Bool :=
    if i.closed then i.low * b ≤ n * a && n * a ≤ i.high * b
    else i.low * b < n * a && n * a < i.high * b
  let above := below + 1
  match inside below, inside above with
  | false, false => none
  | true, false => some below
  | false, true => some above
  | true, true =>
    -- both read back, so the nearer one counts
    let down := i.mid * b - below * a
    let up := above * a - i.mid * b
    if down < up then some below
    else if up < down then some above
    else if below % 2 = 0 then some below else some above

/-- The first grid with a point in the interval, from `10 ^ p` to finer ones. -/
def search (i : Interval) : Nat → Int → Scaled
  | 0, p => ⟨0, p⟩
  | steps + 1, p =>
    match onGrid i p with
    | some n => ⟨n, p⟩
    | none => search i steps (p - 1)

/-- The decimal without the zeros at its end. -/
def stripZeros : Nat → Scaled → Scaled
  | 0, d => d
  | steps + 1, d =>
    if d.digits % 10 = 0 ∧ d.digits ≠ 0 then stripZeros steps ⟨d.digits / 10, d.power + 1⟩ else d

/-- A power of ten that is no smaller than `m · 2 ^ q`: `30103 / 100000` is just above the
logarithm of two. -/
def coarsePower (m : Nat) (q : Int) : Int :=
  ((m.log2 : Int) + 1 + q) * 30103 / 100000 + 2

end Shortest

/-- **The shortest decimal that reads back as `m · 2 ^ q`**, for a positive mantissa. Eighteen
places below the first digit there is always one. -/
def shortest (m : Nat) (q : Int) : Scaled :=
  Shortest.stripZeros 20
    (Shortest.search (Shortest.interval m q) 24 (Shortest.coarsePower m q))

/-- The places before the point of a decimal: `0.001` has `-2` of them, `1` has one. -/
def Scaled.pointAfter (d : Scaled) : Int := (Nat.toDigits 10 d.digits).length + d.power

example : shortest 1 (-1074) = ⟨5, -324⟩ := by decide +kernel
example : shortest 9007199254740991 971 = ⟨17976931348623157, 292⟩ := by decide +kernel
example : shortest 0x1999999999999a (-56) = ⟨1, -1⟩ := by decide +kernel

end WorkflowPolicy.Decimal
