import WorkflowPolicy.Decimal.Shortest

/-!
# Writing binary values

The digits of a value are its shortest decimal (`Decimal.shortest`). What is left to a format is
how the digits are laid out, and a `Notation` is the record of those choices. Three formats are
used:

* `Notation.block` for numbers in block documents: `1e16`, `1e-6`, `.inf`, `.nan`;
* `Notation.compact` for numbers in JSON: the exponent of a large number has a plus sign;
* `Notation.positional` for numbers in messages: never an exponent.

All three write a whole number with `.0`.
-/

namespace WorkflowPolicy.Decimal

/-- How a format lays out the digits of a number. -/
structure Notation where
  /-- The exponent form begins where the point would stand after more digits than this, and
  where it would stand at least `pointLow` places before the first digit. No limits means that
  there is no exponent form. -/
  limits : Option (Int × Int)
  /-- What stands before a positive exponent. -/
  positiveExponent : String
  /-- The texts for infinity and for what is not a number. -/
  infinity : String
  notANumber : String

namespace Notation

/-- Numbers in block documents. -/
def block : Notation := ⟨some (16, -5), "e", ".inf", ".nan"⟩

/-- Numbers in JSON, which has no text for the values that are not finite. -/
def compact : Notation := ⟨some (16, -5), "e+", "null", "null"⟩

/-- Numbers in messages. -/
def positional : Notation := ⟨none, "e", "inf", "NaN"⟩

/-- Digits with a point before, between or after them. -/
def pointed (digits : List Char) (pointAfter : Int) : List Char :=
  if pointAfter ≤ 0 then
    ['0', '.'] ++ List.replicate (-pointAfter).toNat '0' ++ digits
  else if pointAfter < digits.length then
    digits.take pointAfter.toNat ++ ['.'] ++ digits.drop pointAfter.toNat
  else
    digits ++ List.replicate (pointAfter.toNat - digits.length) '0' ++ ['.', '0']

/-- Digits with the point after the first one, and the exponent that makes up for it. -/
def scientific (n : Notation) (digits : List Char) (pointAfter : Int) : List Char :=
  let exponent := pointAfter - 1
  let tail :=
    match digits with
    | d :: e :: rest => d :: '.' :: e :: rest
    | short => short
  if 0 ≤ exponent then tail ++ n.positiveExponent.toList ++ (toString exponent).toList
  else tail ++ ['e'] ++ (toString exponent).toList

/-- Does the format use the exponent form here? -/
def usesExponent (n : Notation) (pointAfter : Int) : Bool :=
  match n.limits with
  | none => false
  | some (high, low) => high < pointAfter || pointAfter ≤ low

/-- **The text of a value.** -/
def write (n : Notation) : Binary64 → String
  | .nan => n.notANumber
  | .infinite negative => (if negative then "-" else "") ++ n.infinity
  | .finite negative 0 _ => if negative then "-0.0" else "0.0"
  | .finite negative m q =>
    let d := shortest m q
    let digits := Nat.toDigits 10 d.digits
    let body :=
      if n.usesExponent d.pointAfter then n.scientific digits d.pointAfter
      else pointed digits d.pointAfter
    (if negative then "-" else "") ++ String.ofList body

end Notation

end WorkflowPolicy.Decimal
