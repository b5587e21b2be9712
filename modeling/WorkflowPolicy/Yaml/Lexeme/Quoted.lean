import WorkflowPolicy.Yaml.Lexeme.Gap
import WorkflowPolicy.Text.Digits

/-!
# Quoted scalars

In single quotes every character stands for itself, a quote written twice for one quote. In
double quotes a backslash begins an escape: a letter for a control or a space, a number of
hexadecimal digits for a code point, or a line break that is not to count. In both kinds the
line breaks are folded, and no line that bounds a document may occur.
-/

namespace WorkflowPolicy.Yaml

/-- The character that a letter stands for after a backslash. -/
def escapedChar? (c : Char) : Option Char :=
  match c with
  | '0' => some '\x00'
  | 'a' => some '\x07'
  | 'b' => some '\x08'
  | 't' => some '\t'
  | '\t' => some '\t'
  | 'n' => some '\n'
  | 'v' => some '\x0b'
  | 'f' => some '\x0c'
  | 'r' => some '\r'
  | 'e' => some '\x1b'
  | ' ' => some ' '
  | '"' => some '"'
  | '/' => some '/'
  | '\\' => some '\\'
  | 'N' => some '\u0085'
  | '_' => some '\u00a0'
  | 'L' => some '\u2028'
  | 'P' => some '\u2029'
  | _ => none

/-- How many hexadecimal digits follow a letter after a backslash. -/
def escapeDigits? (c : Char) : Option Nat :=
  match c with
  | 'x' => some 2
  | 'u' => some 4
  | 'U' => some 8
  | _ => none

/-- A code point written in hexadecimal, if it is one of a character. -/
def codePoint? (digits : List Char) : Option Char := do
  let values ← digits.mapM Text.hexValue?
  let n := values.foldl (fun n d => 16 * n + d) 0
  if h : n.isValidChar then some (Char.ofNatAux n h) else none

/-- The escape after a backslash: its character and how many characters it takes. -/
def readEscape? (c : Cursor) : Option (Char × Nat) := do
  let letter ← c.head?
  match escapeDigits? letter with
  | none => return (← escapedChar? letter, 1)
  | some n =>
    let digits := (c.rest.drop 1).take n
    if digits.length < n then none
    else return (← codePoint? digits, n + 1)

/-- The text before what was read after it. -/
def before (text : List Char) (rest : Option (List Char × Cursor)) :
    Option (List Char × Cursor) :=
  rest.map fun r => (text ++ r.1, r.2)

/-- What is left of a quoted scalar, up to its closing quote. -/
def readQuoted (quote : Char) : Nat → Cursor → Option (List Char × Cursor)
  | 0, _ => none
  | fuel + 1, c =>
    match c.head? with
    | none => none
    | some x =>
      if c.atDocumentMark then none
      else if x == quote then
        if quote == '\'' && c.peek? 1 == some '\'' then
          before ['\''] (readQuoted quote fuel (c.skip 2))
        else some ([], c.next)
      else if quote == '"' && x == '\\' then
        if (c.peek? 1).any isBreak then
          match (c.skip 2).gap none { broken := true } with
          | none => none
          | some (gap, c) => before gap.text (readQuoted quote fuel c)
        else
          match readEscape? c.next with
          | none => none
          | some (e, n) => before [e] (readQuoted quote fuel (c.skip (n + 1)))
      else if isGap x then
        match c.gap none {} with
        | none => none
        | some (gap, c) => before gap.text (readQuoted quote fuel c)
      else before [x] (readQuoted quote fuel c.next)

/-- **A quoted scalar**, its opening quote where the cursor stands. -/
def Cursor.quoted (c : Cursor) (quote : Char) : Option (List Char × Cursor) :=
  readQuoted quote (c.rest.length + 1) c.next

end WorkflowPolicy.Yaml
