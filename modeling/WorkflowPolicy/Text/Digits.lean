/-!
# Digits of any base

`digits? base s` is the number that a list of digits writes, for bases up to sixteen; capital and
small letters are the same digits.
-/

namespace WorkflowPolicy.Text

/-- The value of a hexadecimal digit. -/
def hexValue? (c : Char) : Option Nat :=
  if '0' ≤ c ∧ c ≤ '9' then some (c.toNat - '0'.toNat)
  else if 'a' ≤ c ∧ c ≤ 'f' then some (c.toNat - 'a'.toNat + 10)
  else if 'A' ≤ c ∧ c ≤ 'F' then some (c.toNat - 'A'.toNat + 10)
  else none

/-- The value of a digit in a base. -/
def digitValue? (base : Nat) (c : Char) : Option Nat := (hexValue? c).filter (· < base)

/-- Digits after those whose value is `n`; `none` if another character is among them. -/
def digitsAfter? (base n : Nat) : List Char → Option Nat
  | [] => some n
  | c :: cs =>
    match digitValue? base c with
    | some d => digitsAfter? base (n * base + d) cs
    | none => none

/-- **Digits of a base as a number**; `none` if there are none or other characters. -/
def digits? (base : Nat) (s : List Char) : Option Nat :=
  if s.isEmpty then none else digitsAfter? base 0 s

end WorkflowPolicy.Text
