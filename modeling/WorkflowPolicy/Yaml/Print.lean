import WorkflowPolicy.Json.Basic
import WorkflowPolicy.Yaml.Plain

/-!
# Writing YAML

`Yaml.print` writes a JSON value as a YAML document in block style. Mappings are indented by two
spaces; sequences stand in the column of the mapping around them; empty collections are their two
brackets.

**Scalars.** A text with a line feed is written as a literal block, with a mark for how many line
breaks end it. Any other text is written as it is, if it would be read as that text; else in single
quotes, and where these do not do, in double quotes with escapes. `Shape` is what of a text bears on
this choice.

**Keys** stand before a colon, except long ones and those with line breaks, which get a line of
their own after a question mark.
-/

namespace WorkflowPolicy.Yaml

/-! ### The shape of a text -/

/-- A line break of any kind. -/
def isAnyBreak (c : Char) : Bool := isBreak c || c == '\r' || c == '\u0085'

/-- A character beside which an indicator counts: a blank, a line break, or the null character. -/
def isSeparating (c : Char) : Bool := isBlank c || isAnyBreak c || c == '\x00'

/-- A character that can be written as it is. -/
def isWritable (c : Char) : Bool :=
  let n := c.toNat
  n == 0x0A || (0x20 ≤ n && n ≤ 0x7E) ||
    (0xA0 ≤ n && n != 0xFEFF && n != 0xFFFE && n != 0xFFFF)

/-- The characters that mean something at the beginning of a scalar. -/
def isOpening (c : Char) : Bool := "#,[]\x7b\x7d&*!|>'\"%@\x60".toList.contains c

/-- What follows this place sets an indicator apart. -/
def endsIndicator : List Char → Bool
  | [] => true
  | c :: _ => isSeparating c

/-- Is there an indicator after the beginning: a colon with a blank after it, or a number sign with
a blank before it? `previous` is the character before. -/
def hasInnerIndicator (previous : Char) : List Char → Bool
  | [] => false
  | c :: rest =>
    (c == ':' && endsIndicator rest) || (c == '#' && isSeparating previous) ||
      hasInnerIndicator c rest

/-- Would the text be taken for something else if it were written as it is? -/
def hasIndicator (s : List Char) : Bool :=
  "---".toList.isPrefixOf s || "...".toList.isPrefixOf s ||
    match s with
    | [] => false
    | c :: rest =>
      isOpening c || ((c == '?' || c == '-' || c == ':') && endsIndicator rest) ||
        hasInnerIndicator c rest

/-- Are there two neighbours, the one of the first and the other of the second kind? -/
def hasPair (first second : Char → Bool) (s : List Char) : Bool :=
  (s.zip s.tail).any fun p => first p.1 && second p.2

/-- **The ways in which a text can be written.** -/
structure Shape where
  /-- Does it have line breaks? -/
  multiline : Bool
  /-- As it is. -/
  plain : Bool
  /-- In single quotes. -/
  single : Bool
  /-- As a literal block. -/
  block : Bool
  deriving DecidableEq, Repr

/-- A space or a line break. -/
def isEdge (c : Char) : Bool := c == ' ' || isAnyBreak c

/-- The ways in which a text can be written. -/
def shape (s : List Char) : Shape :=
  let multiline := s.any isAnyBreak
  let edged := s.head?.any isEdge || s.getLast?.any isEdge
  let breakThenSpace := hasPair isAnyBreak (· == ' ') s
  -- a space before a break can only be seen in double quotes
  let escapes := s.any (!isWritable ·) || hasPair (· == ' ') isAnyBreak s
  { multiline
    plain := !multiline && !edged && !escapes && !hasIndicator s
    single := !breakThenSpace && !escapes
    block := !s.isEmpty && s.getLast? != some ' ' && !escapes }

/-- Would the text be read as a text if it were written as it is? -/
def readsAsText (s : String) : Bool :=
  plainMeaning s == .text && !hasLeadingZero s.toList

/-- **How a text is written.** -/
def styleOf (s : String) : Style :=
  let shape := shape s.toList
  if s.toList.contains '\n' then if shape.block then .literal else .doubleQuoted
  else if readsAsText s && shape.plain then .plain
  else if shape.single then .singleQuoted
  else .doubleQuoted

/-! ### Scalars -/

/-- As many spaces. -/
def spaces (n : Nat) : List Char := List.replicate n ' '

/-- A text in single quotes: quotes are doubled, and what follows a line break is indented. -/
def singleQuoted (indent : Nat) (afterBreak : Bool) : List Char → List Char
  | [] => (if afterBreak then spaces indent else []) ++ ['\'']
  | c :: rest =>
    if isBreak c then c :: singleQuoted indent true rest
    else
      (if afterBreak then spaces indent else []) ++ (if c == '\'' then ['\'', c] else [c]) ++
        singleQuoted indent false rest

/-- A number in hexadecimal with capital letters and the given number of digits. -/
def hexEscape (letter : Char) (width n : Nat) : List Char :=
  let digits := (Nat.toDigits 16 n).map Char.toUpper
  ['\\', letter] ++ List.replicate (width - digits.length) '0' ++ digits

/-- The letter after the backslash for the characters that have one. -/
def escapeLetter? (c : Char) : Option Char :=
  match c with
  | '\x00' => some '0'
  | '\x07' => some 'a'
  | '\x08' => some 'b'
  | '\t' => some 't'
  | '\n' => some 'n'
  | '\x0b' => some 'v'
  | '\x0c' => some 'f'
  | '\r' => some 'r'
  | '\x1b' => some 'e'
  | '"' => some '"'
  | '\\' => some '\\'
  | '\u0085' => some 'N'
  | '\u00a0' => some '_'
  | '\u2028' => some 'L'
  | '\u2029' => some 'P'
  | _ => none

/-- One character in double quotes. -/
def doubleQuotedChar (c : Char) : List Char :=
  if isWritable c && !isAnyBreak c && c != '"' && c != '\\' then [c]
  else
    match escapeLetter? c with
    | some letter => ['\\', letter]
    | none =>
      if c.toNat ≤ 0xFF then hexEscape 'x' 2 c.toNat
      else if c.toNat ≤ 0xFFFF then hexEscape 'u' 4 c.toNat
      else hexEscape 'U' 8 c.toNat

/-- What a literal block says about its beginning and its end: the indentation, where the text
begins with a blank, and the line breaks at the end — none, more than one, or just one. -/
def blockHeader (s : List Char) : List Char :=
  let opening := if s.head?.any isEdge then ['2'] else []
  let closing :=
    match s.reverse with
    | [] => ['-']
    | [c] => if isBreak c then ['+'] else ['-']
    | c :: d :: _ => if isBreak c then if isBreak d then ['+'] else [] else ['-']
  '|' :: opening ++ closing

/-- The lines of a literal block. -/
def blockLines (indent : Nat) (afterBreak : Bool) : List Char → List Char
  | [] => []
  | c :: rest =>
    if isBreak c then c :: blockLines indent true rest
    else (if afterBreak then spaces indent else []) ++ c :: blockLines indent false rest

/-- **A text as a scalar**; `indent` is the column of the lines after the first. -/
def scalarText (indent : Nat) (s : String) : String :=
  String.ofList <|
    match styleOf s with
    | .plain => s.toList
    | .singleQuoted => '\'' :: singleQuoted indent false s.toList
    | .literal => blockHeader s.toList ++ '\n' :: blockLines indent true s.toList
    | _ => '"' :: s.toList.flatMap doubleQuotedChar ++ ['"']

/-! ### Collections -/

/-- The text up to the end of its line. -/
def endLine (s : String) : String := if s.toList.getLast?.any isBreak then s else s ++ "\n"

/-- The beginning of a line in a column. -/
def margin (indent : Nat) : String := String.ofList (spaces indent)

/-- Can a key stand before a colon? -/
def isSimpleKey (key : String) : Bool := !(shape key.toList).multiline && key.utf8ByteSize ≤ 128

/-- An entry: `below` is its value after a colon, `beside` its value on a line of its own. -/
def entryText (indent : Nat) (key below beside : String) : String :=
  if isSimpleKey key then scalarText (indent + 2) key ++ ":" ++ below
  else endLine ("? " ++ scalarText (indent + 2) key) ++ margin indent ++ ":" ++ beside

/-- Two parts of a collection, the one below the other. -/
def stacked (indent : Nat) (upper lower : String) : String :=
  endLine upper ++ margin indent ++ lower

mutual
/-- A value after a key and a colon, in a mapping of that column. -/
def below (indent : Nat) : Json → String
  | .object (member :: rest) =>
    "\n" ++ margin (indent + 2) ++ entries (indent + 2) (member :: rest)
  | .array (item :: rest) => "\n" ++ margin indent ++ items indent (item :: rest)
  | value => beside indent value

/-- A value after a hyphen in that column. -/
def beside (indent : Nat) : Json → String
  | .null => " null"
  | .bool b => if b then " true" else " false"
  | .number n => " " ++ n.write Decimal.Notation.block
  | .string s => " " ++ scalarText (indent + 2) s
  | .array [] => " []"
  | .array (item :: rest) => " " ++ items (indent + 2) (item :: rest)
  | .object [] => " \x7b\x7d"
  | .object (member :: rest) => " " ++ entries (indent + 2) (member :: rest)

/-- The entries of a mapping in that column; the first one stands where it is put. -/
def entries (indent : Nat) : List (String × Json) → String
  | [] => ""
  | [(key, value)] => entryText indent key (below indent value) (beside indent value)
  | (key, value) :: next :: rest =>
    stacked indent (entryText indent key (below indent value) (beside indent value))
      (entries indent (next :: rest))

/-- The items of a sequence in that column; the first one stands where it is put. -/
def items (indent : Nat) : List Json → String
  | [] => ""
  | [item] => "-" ++ beside indent item
  | item :: next :: rest => stacked indent ("-" ++ beside indent item) (items indent (next :: rest))
end

/-- **A value as a document.** -/
def print (value : Json) : String :=
  match value with
  | .object (member :: rest) => endLine (entries 0 (member :: rest))
  | .array (item :: rest) => endLine (items 0 (item :: rest))
  | value => endLine (String.ofList ((beside 0 value).toList.drop 1))

end WorkflowPolicy.Yaml
