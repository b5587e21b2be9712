import WorkflowPolicy.Yaml.Cursor
import WorkflowPolicy.Yaml.Token
import WorkflowPolicy.Text.Digits

/-!
# Anchors, aliases and tags

A node may be given a name with `&` to be used again with `*`, and a tag with `!`. A tag is
written out between `<` and `>`, or it is a handle and a suffix; a lone `!` is a tag too. Its
characters are those of a URI, others are written as `%` and two hexadecimal digits for every
octet of their encoding.
-/

namespace WorkflowPolicy.Yaml

/-- What may stand right after the name of an anchor or alias, a gap apart. -/
def endsName (c : Char) : Bool :=
  isGap c || c == '?' || c == ':' || c == ',' || c == ']' || c == '\x7d' || c == '%' ||
    c == '@' || c == '\x60'

/-- The name after `&` or `*`, which may not be empty. -/
def Cursor.name (c : Cursor) : Option (String × Cursor) :=
  let (name, c) := c.next.span isWordChar
  if name.isEmpty || !(c.head?.all endsName) then none else some (String.ofList name, c)

/-- The characters of a tag; commas and brackets belong to it only where it is written out. -/
def isTagChar (verbatim : Bool) (c : Char) : Bool :=
  isWordChar c || c == ';' || c == '/' || c == '?' || c == ':' || c == '@' || c == '&' ||
    c == '=' || c == '+' || c == '$' || c == '.' || c == '!' || c == '~' || c == '*' ||
    c == '\'' || c == '(' || c == ')' ||
    (verbatim && (c == ',' || c == '[' || c == ']'))

/-- An octet written as `%` and two hexadecimal digits. -/
def octet? : List Char → Option (Nat × List Char)
  | '%' :: a :: b :: rest => do return ((← Text.hexValue? a) * 16 + (← Text.hexValue? b), rest)
  | _ => none

/-- How many octets the encoding of a character has, by its first one. -/
def encodedLength? (first : Nat) : Option Nat :=
  if first < 0x80 then some 1
  else if 0xC0 ≤ first ∧ first < 0xE0 then some 2
  else if 0xE0 ≤ first ∧ first < 0xF0 then some 3
  else if 0xF0 ≤ first ∧ first < 0xF8 then some 4
  else none

/-- The octets after the first one of a character, six bits each. -/
def furtherOctets? : Nat → Nat → List Char → Option (Nat × List Char)
  | 0, value, rest => some (value, rest)
  | n + 1, value, rest => do
    let (o, rest) ← octet? rest
    if 0x80 ≤ o ∧ o < 0xC0 then furtherOctets? n (value * 64 + (o - 0x80)) rest else none

/-- A character written octet by octet, and how many characters it took. -/
def escapedTagChar? (s : List Char) : Option (Char × Nat) := do
  let (first, rest) ← octet? s
  let length ← encodedLength? first
  let lead := if length = 1 then first else first % Nat.pow 2 (7 - length)
  let (value, _) ← furtherOctets? (length - 1) lead rest
  return (Char.ofNat value, 3 * length)

/-- The characters of a tag at the head of a text, and how many were read. -/
def tagText (verbatim : Bool) : Nat → List Char → Option (List Char × Nat)
  | 0, _ => some ([], 0)
  | fuel + 1, s =>
    match s with
    | [] => some ([], 0)
    | '%' :: _ => do
      let (c, n) ← escapedTagChar? s
      let (text, m) ← tagText verbatim fuel (s.drop n)
      return (c :: text, n + m)
    | c :: cs =>
      if isTagChar verbatim c then
        (tagText verbatim fuel cs).map fun r => (c :: r.1, r.2 + 1)
      else some ([], 0)

/-- A run of the characters of a tag. -/
def Cursor.uri (c : Cursor) (verbatim : Bool) : Option (List Char × Cursor) := do
  let (text, n) ← tagText verbatim (c.rest.length + 1) c.rest
  return (text, c.skip n)

/-- A handle: `!`, word characters, and `!` again if it is there. -/
def Cursor.handle (c : Cursor) : List Char × Cursor :=
  let (word, c) := c.next.span isWordChar
  if c.head? == some '!' then ('!' :: word ++ ['!'], c.next) else ('!' :: word, c)

/-- The end of a tag: a gap, or a comma within brackets. -/
def endsTag (flow : Bool) (c : Cursor) : Bool :=
  c.gapAt 0 || (flow && c.head? == some ',')

/-- **A tag**, its `!` where the cursor stands. -/
def Cursor.tag (c : Cursor) (flow : Bool) : Option (Token × Cursor) :=
  let finish (handle suffix : List Char) (c : Cursor) : Option (Token × Cursor) :=
    if endsTag flow c then some (.tag (String.ofList handle) (String.ofList suffix), c) else none
  if c.peek? 1 == some '<' then
    match (c.skip 2).uri true with
    | none => none
    | some (text, c) =>
      if text.isEmpty || c.head? != some '>' then none else finish [] text c.next
  else
    let (handle, c) := c.handle
    match c.uri false with
    | none => none
    | some (text, c) =>
      if 1 < handle.length && handle.getLast? == some '!' then
        if text.isEmpty then none else finish handle text c
      else
        let suffix := handle.drop 1 ++ text
        if suffix.isEmpty then finish [] ['!'] c else finish ['!'] suffix c

end WorkflowPolicy.Yaml
