import WorkflowPolicy.Json.Basic
import WorkflowPolicy.Text.Digits

/-!
# Reading JSON

`Json.Node.parse?` reads a whole text as one tree of JSON, blanks around it allowed, and is `none`
for every text that is not JSON. Members keep their order and repeated keys stay.

The reader works on the list of characters. Every step takes at least one character, so the
number of characters bounds the number of steps; `fuel` is that bound. A whole number stays one
as long as it fits in 64 bits, with or without a sign; beyond, and with a point or an exponent,
it is a floating point number, which is infinite if it is too large for that format.

A quoted text may hold an escape that stands for no character: one unit of 16 bits of two. The text
around it is JSON all the same, and there is something wrong with it only for those who read the
quoted text. So a `Node` has room for such texts, which a value has not (`Node.value?`).
-/

namespace WorkflowPolicy.Json

open Text (hexValue?)

/-- Why an escape stands for no character. -/
inductive EscapeFault where
  /-- It is one unit of two, and next to it there is none that goes with it. -/
  | lone
  /-- It is the first unit of two, and there is no second escape of a unit. -/
  | cut

/-- A quoted text as a reader meets it: a text, or what is wrong with its first bad escape. -/
abbrev Quoted := Except EscapeFault String

/-- **The tree of a JSON text**, with its quoted texts as they are met. -/
inductive Node where
  | null
  | bool (b : Bool)
  | number (n : Decimal.Number)
  | text (s : Quoted)
  | array (items : List Node)
  | object (members : List (Quoted × Node))

namespace Node

mutual
/-- A value as a tree. -/
def ofValue : Json → Node
  | .null => .null
  | .bool b => .bool b
  | .number n => .number n
  | .string s => .text (.ok s)
  | .array items => .array (ofItems items)
  | .object members => .object (ofMembers members)

/-- Items as trees. -/
def ofItems : List Json → List Node
  | [] => []
  | item :: items => ofValue item :: ofItems items

/-- Members as trees. -/
def ofMembers : List (String × Json) → List (Quoted × Node)
  | [] => []
  | (key, value) :: members => (.ok key, ofValue value) :: ofMembers members
end

mutual
/-- **The value of a tree**, if all its quoted texts are texts. -/
def value? : Node → Option Json
  | .null => some .null
  | .bool b => some (.bool b)
  | .number n => some (.number n)
  | .text s => s.toOption.map .string
  | .array items => (itemsOf? items).map .array
  | .object members => (membersOf? members).map .object

/-- The items of an array. -/
def itemsOf? : List Node → Option (List Json)
  | [] => some []
  | item :: items => do return (← item.value?) :: (← itemsOf? items)

/-- The members of an object. -/
def membersOf? : List (Quoted × Node) → Option (List (String × Json))
  | [] => some []
  | (key, value) :: members => do
    return (← key.toOption, ← value.value?) :: (← membersOf? members)
end

end Node

/-- Blanks between the parts of a JSON text. -/
def isSpace (c : Char) : Bool := c == ' ' || c == '\t' || c == '\n' || c == '\r'

/-- The text from its first non-blank character on. -/
def skipSpace (s : List Char) : List Char := s.dropWhile isSpace

/-- Four hexadecimal digits as a number. -/
def hexFour? (a b c d : Char) : Option Nat := do
  return (((← hexValue? a) * 16 + (← hexValue? b)) * 16 + (← hexValue? c)) * 16 + (← hexValue? d)

/-- The character after a backslash, for the escapes of two characters. -/
def shortEscape? (c : Char) : Option Char :=
  match c with
  | '"' => some '"'
  | '\\' => some '\\'
  | '/' => some '/'
  | 'b' => some '\x08'
  | 'f' => some '\x0c'
  | 'n' => some '\n'
  | 'r' => some '\r'
  | 't' => some '\t'
  | _ => none

/-- A piece of a quoted text. -/
inductive Piece where
  | char (c : Char)
  /-- An escape of four hexadecimal digits, which is one unit of 16 bits. -/
  | unit (n : Nat)

/-- **The pieces of a quoted text** after its opening quote, and what follows the closing one. -/
def readPieces? : List Char → Option (List Piece × List Char)
  | [] => none
  | '"' :: rest => some ([], rest)
  | '\\' :: 'u' :: a :: b :: c :: d :: rest =>
    match hexFour? a b c d with
    | none => none
    | some n => (readPieces? rest).map fun r => (.unit n :: r.1, r.2)
  | '\\' :: e :: rest =>
    match shortEscape? e with
    | none => none
    | some c => (readPieces? rest).map fun r => (.char c :: r.1, r.2)
  | c :: rest =>
    if c.toNat < 0x20 then none else (readPieces? rest).map fun r => (.char c :: r.1, r.2)

/-- **The characters of the pieces.** A code point above U+FFFF is written as two units. -/
def characters : List Piece → Except EscapeFault (List Char)
  | [] => .ok []
  | .char c :: pieces => (c :: ·) <$> characters pieces
  | .unit n :: pieces =>
    if n < 0xD800 ∨ 0xDFFF < n then (Char.ofNat n :: ·) <$> characters pieces
    else if 0xDC00 ≤ n then .error .lone
    else
      -- the first of two units needs the second one
      match pieces with
      | .unit low :: pieces =>
        if low < 0xDC00 ∨ 0xDFFF < low then .error .lone
        else
          let point := 0x10000 + (n - 0xD800) * 0x400 + (low - 0xDC00)
          (Char.ofNat point :: ·) <$> characters pieces
      | _ => .error .cut

/-- **A quoted text** after its opening quote, and what follows the closing one. -/
def readText? (s : List Char) : Option (Quoted × List Char) :=
  (readPieces? s).map fun r => (String.ofList <$> characters r.1, r.2)

/-- The parts of a number: whole digits, the fraction if there is one, the exponent if there is
one, and what follows. -/
structure NumberParts where
  whole : List Char
  fraction : Option (List Char)
  exponent : Option (Bool × List Char)
  rest : List Char

/-- The digits of an exponent after its letter. -/
def readPower? (s : List Char) : Option ((Bool × List Char) × List Char) :=
  let (negative, s) := Decimal.takeSign s
  let digits := s.takeWhile Text.isDigit
  if digits.isEmpty then none else some ((negative, digits), s.dropWhile Text.isDigit)

/-- A number without its sign: no leading zero, and digits on both sides of a point. -/
def readParts? (s : List Char) : Option NumberParts := do
  let whole := s.takeWhile Text.isDigit
  let rest := s.dropWhile Text.isDigit
  if whole.isEmpty || (whole.head? == some '0' && 1 < whole.length) then none
  else
    let (fraction, rest) ←
      match rest with
      | '.' :: after =>
        let digits := after.takeWhile Text.isDigit
        if digits.isEmpty then none else some (some digits, after.dropWhile Text.isDigit)
      | _ => some (none, rest)
    match rest with
    | 'e' :: after | 'E' :: after =>
      let (power, rest) ← readPower? after
      return ⟨whole, fraction, some power, rest⟩
    | _ => return ⟨whole, fraction, none, rest⟩

/-- The floating point number of the parts. -/
def NumberParts.real (negative : Bool) (p : NumberParts) : Decimal.Binary64 :=
  let fraction := p.fraction.getD []
  let power : Int :=
    match p.exponent with
    | none => 0
    | some (minus, digits) =>
      if minus then -(Decimal.digitsValue digits : Int) else Decimal.digitsValue digits
  Decimal.Binary64.ofDecimal negative (Decimal.digitsValue (p.whole ++ fraction))
    (power - fraction.length)

/-- **A number** and what follows it. -/
def readNumber? (s : List Char) : Option (Decimal.Number × List Char) := do
  let (negative, digits) :=
    match s with
    | '-' :: cs => (true, cs)
    | cs => (false, cs)
  let parts ← readParts? digits
  let magnitude := Decimal.digitsValue parts.whole
  let whole := parts.fraction.isNone && parts.exponent.isNone
  if whole && !negative && magnitude < Nat.pow 2 64 then
    return (.int magnitude, parts.rest)
  else if whole && negative && 0 < magnitude && magnitude ≤ Nat.pow 2 63 then
    return (.int (-magnitude), parts.rest)
  else
    return (.real (parts.real negative), parts.rest)

mutual
/-- A tree and what follows it. -/
def readValue? : Nat → List Char → Option (Node × List Char)
  | 0, _ => none
  | fuel + 1, s =>
    match skipSpace s with
    | 'n' :: 'u' :: 'l' :: 'l' :: rest => some (.null, rest)
    | 't' :: 'r' :: 'u' :: 'e' :: rest => some (.bool true, rest)
    | 'f' :: 'a' :: 'l' :: 's' :: 'e' :: rest => some (.bool false, rest)
    | '"' :: rest => (readText? rest).map fun r => (.text r.1, r.2)
    | '[' :: rest =>
      match skipSpace rest with
      | ']' :: rest => some (.array [], rest)
      | rest => (readItems? fuel rest).map fun r => (.array r.1, r.2)
    | '\x7b' :: rest =>
      match skipSpace rest with
      | '\x7d' :: rest => some (.object [], rest)
      | rest => (readMembers? fuel rest).map fun r => (.object r.1, r.2)
    | rest => (readNumber? rest).map fun r => (.number r.1, r.2)

/-- The items of an array up to its closing bracket, at least one of them. -/
def readItems? : Nat → List Char → Option (List Node × List Char)
  | 0, _ => none
  | fuel + 1, s =>
    match readValue? fuel s with
    | none => none
    | some (item, rest) =>
      match skipSpace rest with
      | ']' :: rest => some ([item], rest)
      | ',' :: rest => (readItems? fuel rest).map fun r => (item :: r.1, r.2)
      | _ => none

/-- The members of an object up to its closing brace, at least one of them. -/
def readMembers? : Nat → List Char → Option (List (Quoted × Node) × List Char)
  | 0, _ => none
  | fuel + 1, s =>
    match skipSpace s with
    | '"' :: rest =>
      match readText? rest with
      | none => none
      | some (key, rest) =>
        match skipSpace rest with
        | ':' :: rest =>
          match readValue? fuel rest with
          | none => none
          | some (value, rest) =>
            match skipSpace rest with
            | '\x7d' :: rest => some ([(key, value)], rest)
            | ',' :: rest => (readMembers? fuel rest).map fun r => ((key, value) :: r.1, r.2)
            | _ => none
        | _ => none
    | _ => none
end

/-- **A whole text as one tree of JSON.** -/
def Node.parse? (text : String) : Option Node :=
  let s := text.toList
  match readValue? (2 * s.length + 2) s with
  | some (value, rest) => if (skipSpace rest).isEmpty then some value else none
  | none => none

/-- **A whole text as one JSON value**, if all quoted texts in it are texts. -/
def parse? (text : String) : Option Json := (Node.parse? text).bind Node.value?

end WorkflowPolicy.Json
