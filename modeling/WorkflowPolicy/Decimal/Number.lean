import WorkflowPolicy.Decimal.Notation
import WorkflowPolicy.Text.Name

/-!
# Numbers in documents

Documents hold two kinds of numbers, whole ones and binary floating point ones. This module
reads the decimal spelling of a floating point number, `readDecimal?`: a sign, digits with at
most one point among them, and a power of ten. At least one digit stands before the power.
-/

namespace WorkflowPolicy.Decimal

/-- A number of a document. -/
inductive Number where
  | int (n : Int)
  | real (x : Binary64)
  deriving DecidableEq, Repr

namespace Number

/-- The text of a number in the given notation. -/
def write (style : Notation) : Number → String
  | .int n => toString n
  | .real x => style.write x

/-- Equality of numbers: a whole number is never equal to a floating point one. -/
def same : Number → Number → Bool
  | .int a, .int b => a == b
  | .real x, .real y => x.sameNumber y
  | _, _ => false

end Number

/-- The value of a list of ASCII digits, read from the left. -/
def digitsValue (ds : List Char) : Nat :=
  ds.foldl (fun n d => 10 * n + (d.toNat - '0'.toNat)) 0

/-- A sign, if there is one, and what follows: is the sign a minus? -/
def takeSign : List Char → Bool × List Char
  | '-' :: cs => (true, cs)
  | '+' :: cs => (false, cs)
  | cs => (false, cs)

/-- The exponent part of a decimal: empty, or `e` and a whole number. -/
def readExponent? : List Char → Option Int
  | [] => some 0
  | c :: cs =>
    if c == 'e' || c == 'E' then
      let (negative, ds) := takeSign cs
      if ds.isEmpty || !ds.all Text.isDigit then none
      else if negative then some (-(digitsValue ds : Int)) else some (digitsValue ds)
    else none

/-- **A decimal spelling** as the nearest binary value, or `none` if it is no decimal. -/
def readDecimal? (s : List Char) : Option Binary64 :=
  let (negative, s) := takeSign s
  let whole := s.takeWhile Text.isDigit
  let rest := s.dropWhile Text.isDigit
  let (fraction, rest) :=
    match rest with
    | '.' :: cs => (cs.takeWhile Text.isDigit, cs.dropWhile Text.isDigit)
    | cs => ([], cs)
  if whole.isEmpty && fraction.isEmpty then none
  else
    (readExponent? rest).map fun e =>
      Binary64.ofDecimal negative (digitsValue (whole ++ fraction)) (e - fraction.length)

end WorkflowPolicy.Decimal
