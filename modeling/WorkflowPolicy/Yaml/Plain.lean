import WorkflowPolicy.Yaml.Node
import WorkflowPolicy.Text.Digits
import WorkflowPolicy.Decimal.Number

/-!
# What a plain scalar means

A scalar without quotes and without a tag is read by its form, in this order.

* Nothing, `~` and `null` are null; `true` and `false` are truth values. The three words may
  also begin with a capital letter or be in capitals throughout.
* Whole numbers have an optional sign and decimal digits, or `0x`, `0o` or `0b` and digits of
  that base. More than one decimal digit with a zero at the front is no number.
* Floating point numbers are decimals that do not overflow, `.inf` with an optional sign and
  `.nan`.
* All else is a text.

A whole number is *wide* if it needs more than 64 bits; beyond 128 bits it is read as a floating
point number.
-/

namespace WorkflowPolicy.Yaml

/-- What a scalar means. -/
inductive Meaning where
  | null
  | bool (b : Bool)
  | int (n : Int)
  /-- A whole number of more than 64 bits. -/
  | wide (n : Int)
  | real (x : Decimal.Binary64)
  /-- The text of the scalar. -/
  | text
  deriving DecidableEq, Repr

/-- The words for null. -/
def isNull (s : String) : Bool := s == "null" || s == "Null" || s == "NULL" || s == "~"

/-- The words for the truth values. -/
def readBool? (s : String) : Option Bool :=
  if s == "true" || s == "True" || s == "TRUE" then some true
  else if s == "false" || s == "False" || s == "FALSE" then some false
  else none

/-- More than one digit with a zero at the front, after at most one sign. -/
def hasLeadingZero (s : List Char) : Bool :=
  let s :=
    match s with
    | '-' :: rest => rest
    | '+' :: rest => rest
    | s => s
  match s with
  | '0' :: c :: rest => (c :: rest).all Text.isDigit
  | _ => false

/-- A whole number as its sign and its size. -/
def readInteger? (s : List Char) : Option (Bool × Nat) :=
  let (negative, s) := Decimal.takeSign s
  let size :=
    match s with
    | '0' :: 'x' :: ds => Text.digits? 16 ds
    | '0' :: 'o' :: ds => Text.digits? 8 ds
    | '0' :: 'b' :: ds => Text.digits? 2 ds
    | ds => if hasLeadingZero ds then none else Text.digits? 10 ds
  size.map fun n => (negative, n)

/-- A whole number without a sign of 64 bits. -/
def readUnsigned? (s : List Char) : Option Nat :=
  match readInteger? s with
  | some (false, n) => if n < Nat.pow 2 64 then some n else none
  | _ => none

/-- A whole number with a sign of 64 bits. -/
def readSigned? (s : List Char) : Option Int :=
  match readInteger? s with
  | some (false, n) => if n < Nat.pow 2 63 then some n else none
  | some (true, n) => if n ≤ Nat.pow 2 63 then some (-n) else none
  | none => none

/-- A whole number of up to 128 bits. -/
def integerMeaning? (s : List Char) : Option Meaning :=
  match readInteger? s with
  | some (false, n) =>
    if n < Nat.pow 2 64 then some (.int n)
    else if n < Nat.pow 2 128 then some (.wide n)
    else none
  | some (true, n) =>
    if n ≤ Nat.pow 2 63 then some (.int (-n))
    else if n ≤ Nat.pow 2 127 then some (.wide (-n))
    else none
  | none => none

/-- The words for the values that are not finite. -/
def readNotFinite? (s : String) : Option Decimal.Binary64 :=
  if s == ".inf" || s == ".Inf" || s == ".INF" || s == "+.inf" || s == "+.Inf" || s == "+.INF"
  then some (.infinite false)
  else if s == "-.inf" || s == "-.Inf" || s == "-.INF" then some (.infinite true)
  else if s == ".nan" || s == ".NaN" || s == ".NAN" then some .nan
  else none

/-- A floating point number. -/
def readReal? (s : String) : Option Decimal.Binary64 :=
  match readNotFinite? s with
  | some x => some x
  | none =>
    match Decimal.readDecimal? s.toList with
    | some x => if x.isFinite then some x else none
    | none => none

/-- **What a plain scalar means.** -/
def plainMeaning (s : String) : Meaning :=
  if s.isEmpty || isNull s then .null
  else
    match readBool? s with
    | some b => .bool b
    | none =>
      match integerMeaning? s.toList with
      | some m => m
      | none =>
        if hasLeadingZero s.toList then .text
        else
          match readReal? s with
          | some x => .real x
          | none => .text

/-- The tag of the core types. -/
def coreTag (name : String) : String := "tag:yaml.org,2002:" ++ name

/-- The name in a local tag: what follows the mark, or the mark itself if nothing does. -/
def localTag? (tag : Option String) : Option String :=
  match tag.map String.toList with
  | some ['!'] => some "!"
  | some ('!' :: name) => some (String.ofList name)
  | _ => none

/-- **What a scalar means**, or the type that its tag asks for in vain. A tag of the core types
forces the type; without a tag, and with a local one, a plain scalar is read by its form. With
`tagSeen` the tag has been dealt with. -/
def Scalar.meaning (s : Scalar) (tagSeen : Bool) : Except String Meaning :=
  match if tagSeen then none else s.tag with
  | none => .ok (if s.style == .plain then plainMeaning s.text else .text)
  | some tag =>
    if tag == coreTag "bool" then
      match readBool? s.text with
      | some b => .ok (.bool b)
      | none => .error "a boolean"
    else if tag == coreTag "int" then
      match integerMeaning? s.text.toList with
      | some m => .ok m
      | none => .error "an integer"
    else if tag == coreTag "float" then
      match readReal? s.text with
      | some x => .ok (.real x)
      | none => .error "a float"
    else if tag == coreTag "null" then
      if isNull s.text then .ok .null else .error "null"
    else if tag.startsWith "!" && s.style == .plain then .ok (plainMeaning s.text)
    else .ok .text

end WorkflowPolicy.Yaml
