import WorkflowPolicy.Decimal.Number
import WorkflowPolicy.Text.Digits

/-!
# TOML scalars without quotes

Which words stand for a number, a truth value, a date or a time. `isScalar` is the test; what the
scalar means is not kept.

* Whole numbers are decimal, with an optional sign and no leading zero, or hexadecimal, octal or
  binary with a small letter after a zero. They have at most 128 bits.
* Floating point numbers have a fraction, an exponent or both, and do not overflow; `inf` and `nan`
  are words of their own.
* Between digits there may be single underscores.
* Dates and times are those of the calendar. Seconds may be left out, and a leap second is one.
-/

namespace WorkflowPolicy.Toml

/-- The digits without the underscores between them; `none` if an underscore stands elsewhere, or
if there are no digits. -/
def plainDigits? (isDigit : Char → Bool) : List Char → Option (List Char)
  | [] => none
  | [c] => if isDigit c then some [c] else none
  | c :: '_' :: rest => if isDigit c then (plainDigits? isDigit rest).map (c :: ·) else none
  | c :: rest => if isDigit c then (plainDigits? isDigit rest).map (c :: ·) else none

/-- Decimal digits without a leading zero. -/
def decimal? (s : List Char) : Option (List Char) :=
  match plainDigits? Text.isDigit s with
  | some ('0' :: _ :: _) => none
  | digits => digits

/-- Is it a whole number? -/
def isInteger (s : List Char) : Bool :=
  let based := fun (base : Nat) (digits : List Char) =>
    match plainDigits? (fun c => (Text.digitValue? base c).isSome) digits with
    | some digits => (Text.digits? base digits).any (· < Nat.pow 2 128)
    | none => false
  match s with
  | '0' :: 'x' :: digits => based 16 digits
  | '0' :: 'o' :: digits => based 8 digits
  | '0' :: 'b' :: digits => based 2 digits
  | s =>
    let (negative, s) := Decimal.takeSign s
    match decimal? s with
    | some digits =>
      let n := Decimal.digitsValue digits
      if negative then n ≤ Nat.pow 2 127 else n < Nat.pow 2 128
    | none => false

/-- An exponent after its letter. -/
def exponent? (s : List Char) : Option Int :=
  let (negative, s) := Decimal.takeSign s
  (plainDigits? Text.isDigit s).map fun digits =>
    let n := Decimal.digitsValue digits
    if negative then -(n : Int) else n

/-- Is it a floating point number? -/
def isReal (s : List Char) : Bool :=
  let (_, s) := Decimal.takeSign s
  if s == "inf".toList || s == "nan".toList then true
  else
    let isExponentMark := fun c => c == 'e' || c == 'E'
    let mantissa := s.takeWhile (!isExponentMark ·)
    let power := (s.dropWhile (!isExponentMark ·)).drop 1
    let hasPower := mantissa.length < s.length
    let parts :=
      match Text.splitFirst '.' mantissa with
      | some (whole, fraction) => (decimal? whole, plainDigits? Text.isDigit fraction)
      | none => (decimal? mantissa, if hasPower then some [] else none)
    match parts, if hasPower then exponent? power else some 0 with
    | (some whole, some fraction), some e =>
      (Decimal.Binary64.ofDecimal false (Decimal.digitsValue (whole ++ fraction))
        (e - fraction.length)).isFinite
    | _, _ => false

/-! ### Dates and times -/

/-- The number that the first `n` characters write, if they are digits, and what follows. -/
def fixedDigits? (n : Nat) (s : List Char) : Option (Nat × List Char) :=
  let digits := s.take n
  if digits.length = n && digits.all Text.isDigit then
    some (Decimal.digitsValue digits, s.drop n)
  else none

/-- What follows the character at the front. -/
def afterChar? (c : Char) : List Char → Option (List Char)
  | d :: rest => if d = c then some rest else none
  | [] => none

/-- Has the year a leap day? -/
def isLeapYear (year : Nat) : Bool := year % 4 = 0 && (year % 100 ≠ 0 || year % 400 = 0)

/-- The number of days of a month. -/
def daysIn (year month : Nat) : Nat :=
  if month = 2 then if isLeapYear year then 29 else 28
  else if [4, 6, 9, 11].contains month then 30
  else 31

/-- What follows a date. -/
def afterDate? (s : List Char) : Option (List Char) := do
  let (year, s) ← fixedDigits? 4 s
  let (month, s) ← fixedDigits? 2 (← afterChar? '-' s)
  let (day, s) ← fixedDigits? 2 (← afterChar? '-' s)
  if 1 ≤ month && month ≤ 12 && 1 ≤ day && day ≤ daysIn year month then some s else none

/-- What follows the hours and minutes of a time. -/
def afterMinutes? (s : List Char) : Option (List Char) := do
  let (hour, s) ← fixedDigits? 2 s
  let (minute, s) ← fixedDigits? 2 (← afterChar? ':' s)
  if hour ≤ 23 && minute ≤ 59 then some s else none

/-- What follows the seconds of a time, if there are any. -/
def afterSeconds? (s : List Char) : Option (List Char) :=
  match s with
  | ':' :: s => do
    let (second, s) ← fixedDigits? 2 s
    if 60 < second then none
    else
      match s with
      | '.' :: fraction =>
        if (fraction.takeWhile Text.isDigit).isEmpty then none
        else some (fraction.dropWhile Text.isDigit)
      | s => some s
  | s => some s

/-- What follows a time. -/
def afterTime? (s : List Char) : Option (List Char) := do afterSeconds? (← afterMinutes? s)

/-- Does the rest say how far the time is from that of Greenwich, or nothing? -/
def endsOffset (s : List Char) : Bool :=
  match s with
  | [] => true
  | [c] => c == 'Z' || c == 'z'
  | c :: s => (c == '+' || c == '-') && afterMinutes? s == some []

/-- Is it a date, a time, or both? -/
def isDateOrTime (s : List Char) : Bool :=
  match afterDate? s with
  | some [] => true
  | some (c :: s) => (c == 'T' || c == 't' || c == ' ') && (afterTime? s).any endsOffset
  | none => afterTime? s == some []

/-- **Is it a scalar?** -/
def isScalar (s : List Char) : Bool :=
  s == "true".toList || s == "false".toList || isInteger s || isReal s || isDateOrTime s

end WorkflowPolicy.Toml
