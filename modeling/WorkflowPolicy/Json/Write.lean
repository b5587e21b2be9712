import WorkflowPolicy.Json.Basic
import WorkflowPolicy.Text.Quoted

/-!
# Writing JSON

Two layouts of a JSON value: `Json.compact`, on one line without spaces, and `Json.pretty`, with
a line for every item and member, indented by two spaces for each level. Both write the members
of an object in their order, and an empty array or object as its two brackets.

Texts are quoted by `quotedText`: the quote and the backslash have a backslash before them, the
controls backspace, form feed, line feed, carriage return and tab are letters after a backslash,
other characters below the space are `\u` and four digits, and all else stands for itself.
-/

namespace WorkflowPolicy.Json

/-- A control character as `\u` and four hexadecimal digits. -/
def controlEscape (c : Char) : List Char :=
  let digits := Text.hexadecimal c.toNat
  ['\\', 'u'] ++ List.replicate (4 - digits.length) '0' ++ digits

/-- One character between the quotes. -/
def escapedChar (c : Char) : List Char :=
  match c with
  | '"' => ['\\', '"']
  | '\\' => ['\\', '\\']
  | '\n' => ['\\', 'n']
  | '\r' => ['\\', 'r']
  | '\t' => ['\\', 't']
  | '\x08' => ['\\', 'b']
  | '\x0c' => ['\\', 'f']
  | c => if c.toNat < 0x20 then controlEscape c else [c]

/-- **A text in JSON's quotes.** -/
def quotedText (s : String) : String :=
  String.ofList ('"' :: s.toList.flatMap escapedChar ++ ['"'])

/-- A number: whole numbers in full, floating point numbers by their shortest digits. -/
def writeNumber (n : Decimal.Number) : String := n.write Decimal.Notation.compact

mutual
/-- **JSON on one line**, without spaces. -/
def compact : Json → String
  | .null => "null"
  | .bool b => if b then "true" else "false"
  | .number n => writeNumber n
  | .string s => quotedText s
  | .array items => "[" ++ compactItems items ++ "]"
  | .object members => "\x7b" ++ compactMembers members ++ "\x7d"

/-- Items with commas between them. -/
def compactItems : List Json → String
  | [] => ""
  | [item] => compact item
  | item :: next :: rest => compact item ++ "," ++ compactItems (next :: rest)

/-- Members with commas between them. -/
def compactMembers : List (String × Json) → String
  | [] => ""
  | [(key, value)] => quotedText key ++ ":" ++ compact value
  | (key, value) :: next :: rest =>
    quotedText key ++ ":" ++ compact value ++ "," ++ compactMembers (next :: rest)
end

/-- The indentation of a level: two spaces each. -/
def indentation (level : Nat) : String := String.ofList (List.replicate (2 * level) ' ')

mutual
/-- JSON over several lines, the value itself standing at the given level. -/
def prettyAt (level : Nat) : Json → String
  | .null => "null"
  | .bool b => if b then "true" else "false"
  | .number n => writeNumber n
  | .string s => quotedText s
  | .array [] => "[]"
  | .array (item :: rest) =>
    "[\n" ++ prettyItems (level + 1) (item :: rest) ++ "\n" ++ indentation level ++ "]"
  | .object [] => "\x7b\x7d"
  | .object (member :: rest) =>
    "\x7b\n" ++ prettyMembers (level + 1) (member :: rest) ++ "\n" ++ indentation level ++ "\x7d"

/-- Items on lines of their own. -/
def prettyItems (level : Nat) : List Json → String
  | [] => ""
  | [item] => indentation level ++ prettyAt level item
  | item :: next :: rest =>
    indentation level ++ prettyAt level item ++ ",\n" ++ prettyItems level (next :: rest)

/-- Members on lines of their own. -/
def prettyMembers (level : Nat) : List (String × Json) → String
  | [] => ""
  | [(key, value)] => indentation level ++ quotedText key ++ ": " ++ prettyAt level value
  | (key, value) :: next :: rest =>
    indentation level ++ quotedText key ++ ": " ++ prettyAt level value ++ ",\n" ++
      prettyMembers level (next :: rest)
end

/-- **JSON over several lines**, indented by two spaces for each level. -/
def pretty (value : Json) : String := prettyAt 0 value

end WorkflowPolicy.Json
