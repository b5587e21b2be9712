import WorkflowPolicy.Toml.Scalar
import WorkflowPolicy.Toml.Value

/-!
# Reading TOML

`Toml.parse?` is the table of a TOML 1.1 text, or `none` if the text is not well formed: it breaks
the grammar, or it says something of a table that may no longer be said (`Toml.Value`).

The reader works on the list of characters. Every call of a reader of values takes a character, so
the number of characters bounds the number of calls; `fuel` is that bound. Arrays and inline tables
are nested at most `maxNesting` deep.
-/

namespace WorkflowPolicy.Toml

/-- How deep arrays and inline tables may be nested. -/
def maxNesting : Nat := 80

/-- A blank within a line. -/
def isBlank (c : Char) : Bool := c == ' ' || c == '\t'

/-- A character of a comment, and of a text in single quotes but for the quote. -/
def isLineChar (c : Char) : Bool := c == '\t' || (0x20 ≤ c.toNat && c.toNat != 0x7F)

/-- Past the blanks. -/
def skipBlanks (s : List Char) : List Char := s.dropWhile isBlank

/-- Past a comment, if one begins here. -/
def skipComment (s : List Char) : List Char :=
  match s with
  | '#' :: rest => rest.dropWhile isLineChar
  | s => s

/-- Past a line break. -/
def afterBreak? : List Char → Option (List Char)
  | '\n' :: rest => some rest
  | '\r' :: '\n' :: rest => some rest
  | _ => none

/-- Past blanks, comments and line breaks. -/
def skipLines : Nat → List Char → List Char
  | 0, s => s
  | fuel + 1, s =>
    let s := skipComment (skipBlanks s)
    match afterBreak? s with
    | some rest => skipLines fuel rest
    | none => s

/-! ### Texts -/

/-- The character after a backslash, for the escapes of two characters. -/
def escape? (c : Char) : Option Char :=
  match c with
  | 'b' => some '\x08'
  | 't' => some '\t'
  | 'n' => some '\n'
  | 'f' => some '\x0c'
  | 'r' => some '\r'
  | 'e' => some '\x1b'
  | '"' => some '"'
  | '\\' => some '\\'
  | _ => none

/-- The number of digits of an escape by code point. -/
def escapeWidth? (c : Char) : Option Nat :=
  match c with
  | 'x' => some 2
  | 'u' => some 4
  | 'U' => some 8
  | _ => none

/-- The character that an escape stands for, after its backslash, and what follows. -/
def readEscape? (s : List Char) : Option (Char × List Char) :=
  match s with
  | [] => none
  | c :: rest =>
    match escapeWidth? c with
    | none => (escape? c).map fun e => (e, rest)
    | some width =>
      if rest.length < width then none
      else
        match Text.digits? 16 (rest.take width) with
        | none => none
        | some n =>
          if n.isValidChar then some (Char.ofNat n, rest.drop width) else none

/-- A text in double quotes on one line, after the opening quote. -/
def readQuoted? : Nat → List Char → Option (List Char × List Char)
  | 0, _ => none
  | fuel + 1, s =>
    match s with
    | [] => none
    | '"' :: rest => some ([], rest)
    | '\\' :: rest => do
      let (c, rest) ← readEscape? rest
      (readQuoted? fuel rest).map fun r => (c :: r.1, r.2)
    | c :: rest =>
      if isLineChar c then (readQuoted? fuel rest).map fun r => (c :: r.1, r.2) else none

/-- A text in single quotes on one line, after the opening quote. -/
def readLiteral? : List Char → Option (List Char × List Char)
  | [] => none
  | '\'' :: rest => some ([], rest)
  | c :: rest => if isLineChar c then (readLiteral? rest).map fun r => (c :: r.1, r.2) else none

/-- The quotes at the end of a text of several lines: of up to five the last three close it. -/
def closing? (quote : Char) (s : List Char) : Option (List Char × List Char) :=
  let count := min 5 (s.takeWhile (· == quote)).length
  if 3 ≤ count then some (List.replicate (count - 3) quote, s.drop count) else none

/-- A text of several lines, after its opening quotes; `escapes` tells double quotes from single
ones. A backslash at the end of a line takes away the blanks and line breaks that follow. -/
def readLong? (quote : Char) (escapes : Bool) : Nat → List Char → Option (List Char × List Char)
  | 0, _ => none
  | fuel + 1, s =>
    -- quotes are looked at first, since one or two of them may stand before the closing ones
    match closing? quote s with
    | some done => some done
    | none =>
      match s with
      | [] => none
      | c :: rest =>
        match afterBreak? s with
        | some rest => (readLong? quote escapes fuel rest).map fun r => ('\n' :: r.1, r.2)
        | none =>
          if escapes && c == '\\' then
            match afterBreak? (skipBlanks rest) with
            -- the line goes on where the next text is
            | some rest =>
              let isGap := fun c => isBlank c || c == '\n' || c == '\r'
              readLong? quote escapes fuel (rest.dropWhile isGap)
            | none => do
              let (c, rest) ← readEscape? rest
              (readLong? quote escapes fuel rest).map fun r => (c :: r.1, r.2)
          else if isLineChar c then
            (readLong? quote escapes fuel rest).map fun r => (c :: r.1, r.2)
          else none

/-- A line break right after the opening quotes does not count. -/
def skipFirstBreak (s : List Char) : List Char := (afterBreak? s).getD s

/-- A text of any form. -/
def readText? (s : List Char) : Option (String × List Char) :=
  let text :=
    match s with
    | '"' :: '"' :: '"' :: rest => readLong? '"' true (rest.length + 1) (skipFirstBreak rest)
    | '\'' :: '\'' :: '\'' :: rest =>
      readLong? '\'' false (rest.length + 1) (skipFirstBreak rest)
    | '"' :: rest => readQuoted? (rest.length + 1) rest
    | '\'' :: rest => readLiteral? rest
    | _ => none
  text.map fun r => (String.ofList r.1, r.2)

/-! ### Keys -/

/-- A character of a key without quotes. -/
def isKeyChar (c : Char) : Bool := c.isAlphanum || c == '-' || c == '_'

/-- One part of a key. -/
def readKeyPart? (s : List Char) : Option (String × List Char) :=
  match s with
  | '"' :: rest => (readQuoted? (rest.length + 1) rest).map fun r => (String.ofList r.1, r.2)
  | '\'' :: rest => (readLiteral? rest).map fun r => (String.ofList r.1, r.2)
  | s =>
    let name := s.takeWhile isKeyChar
    if name.isEmpty then none else some (String.ofList name, s.dropWhile isKeyChar)

/-- **A key**, as its parts, and what follows the blanks after it. -/
def readKey? : Nat → List Char → Option (List String × List Char)
  | 0, _ => none
  | fuel + 1, s =>
    match readKeyPart? (skipBlanks s) with
    | none => none
    | some (part, rest) =>
      match skipBlanks rest with
      | '.' :: rest => (readKey? fuel rest).map fun r => (part :: r.1, r.2)
      | rest => some ([part], rest)

/-! ### Values -/

/-- A character of a scalar without quotes. -/
def isScalarChar (c : Char) : Bool := isKeyChar c || c == '+' || c == '.' || c == ':'

/-- A scalar without quotes; a date and a time may have one space between them. -/
def readScalar? (s : List Char) : Option (List Char) :=
  let word := s.takeWhile isScalarChar
  let rest := s.dropWhile isScalarChar
  let (word, rest) :=
    match afterDate? word, rest with
    | some [], ' ' :: c :: more =>
      -- the space belongs to the scalar only if a time follows it
      if Text.isDigit c then
        (word ++ ' ' :: (c :: more).takeWhile isScalarChar, (c :: more).dropWhile isScalarChar)
      else (word, rest)
    | _, _ => (word, rest)
  if isScalar word then some rest else none

mutual
/-- **A value** and what follows it; `room` is how many levels may be opened. -/
def readValue? : Nat → Nat → List Char → Option (Value × List Char)
  | 0, _, _ => none
  | fuel + 1, room, s =>
    match s with
    | '[' :: rest =>
      if room = 0 then none
      else (readItems? fuel (room - 1) rest).map fun r => (.array r.1, r.2)
    | '\x7b' :: rest =>
      if room = 0 then none
      else (readEntries? fuel (room - 1) [] rest).map fun r => (.table .inline r.1, r.2)
    | c :: _ =>
      if c == '"' || c == '\'' then (readText? s).map fun r => (.text r.1, r.2)
      else (readScalar? s).map fun rest => (.scalar, rest)
    | [] => none

/-- The items of an array up to its closing bracket. -/
def readItems? : Nat → Nat → List Char → Option (List Value × List Char)
  | 0, _, _ => none
  | fuel + 1, room, s =>
    match skipLines s.length s with
    | ']' :: rest => some ([], rest)
    | s =>
      match readValue? fuel room s with
      | none => none
      | some (item, rest) =>
        match skipLines rest.length rest with
        | ',' :: rest => (readItems? fuel room rest).map fun r => (item :: r.1, r.2)
        | ']' :: rest => some ([item], rest)
        | _ => none

/-- The entries of an inline table up to its closing brace, after those that have been read. -/
def readEntries? : Nat → Nat → Entries → List Char → Option (Entries × List Char)
  | 0, _, _, _ => none
  | fuel + 1, room, entries, s =>
    match skipLines s.length s with
    | '\x7d' :: rest => some (entries, rest)
    | s =>
      match readKey? s.length s with
      | some (key, '=' :: rest) =>
        match readValue? fuel room (skipBlanks rest) with
        | none => none
        | some (value, rest) =>
          match addValue value true key .inline entries with
          | none => none
          | some entries =>
            match skipLines rest.length rest with
            | ',' :: rest => readEntries? fuel room entries rest
            | '\x7d' :: rest => some (entries, rest)
            | _ => none
      | _ => none
end

/-! ### Documents -/

/-- What follows the end of a line; blanks and a comment may stand before it. -/
def afterLine? (s : List Char) : Option (List Char) :=
  match skipComment (skipBlanks s) with
  | [] => some []
  | s => afterBreak? s

/-- A header: its key, whether it is one of a list, and what follows. -/
def readHeader? (s : List Char) : Option (List String × Bool × List Char) :=
  match s with
  | '[' :: rest =>
    match readKey? (rest.length + 1) rest with
    | some (key, ']' :: ']' :: rest) => some (key, true, rest)
    | _ => none
  | s =>
    match readKey? (s.length + 1) s with
    | some (key, ']' :: rest) => some (key, false, rest)
    | _ => none

/-- The table after a header. -/
def openHeader? (key : List String) (isList : Bool) (root : Entries) : Option Entries :=
  match key.getLast? with
  | none => none
  | some last =>
    atHeader (if isList then openNext last else openTable last) key.dropLast .opened root

/-- The lines of a document, below the header with the given key. -/
def readLines? : Nat → List String → Entries → List Char → Option Entries
  | 0, _, _, _ => none
  | fuel + 1, header, root, s =>
    match skipLines s.length s with
    | [] => some root
    | '[' :: rest =>
      match readHeader? rest with
      | none => none
      | some (key, isList, rest) =>
        match openHeader? key isList root, afterLine? rest with
        | some root, some rest => readLines? fuel key root rest
        | _, _ => none
    | s =>
      match readKey? s.length s with
      | some (key, '=' :: rest) =>
        match readValue? (2 * rest.length + 2) maxNesting (skipBlanks rest) with
        | none => none
        | some (value, rest) =>
          match atHeader (addValue value true key) header .opened root, afterLine? rest with
          | some root, some rest => readLines? fuel header root rest
          | _, _ => none
      | _ => none

/-- **The table of a text**, or `none` if the text is not well formed. -/
def parse? (text : String) : Option Entries :=
  let s :=
    match text.toList with
    | '\ufeff' :: rest => rest
    | s => s
  readLines? (s.length + 1) [] [] s

end WorkflowPolicy.Toml
