/-!
# Places in a text

The character classes of YAML 1.1 and the cursor with which a text is read.

A `Cursor` is what is left of the text and where that begins: how many characters lie before it,
in which line, in which column. The line breaks of a text are first made alike by `plainBreaks`:
a carriage return, the pair of it and a line feed, and the next-line control all become a line
feed. The line and paragraph separators are line breaks too and stay what they are.
-/

namespace WorkflowPolicy.Yaml

/-- A line break, after `plainBreaks`. -/
def isBreak (c : Char) : Bool := c == '\n' || c == '\u2028' || c == '\u2029'

/-- A blank within a line. -/
def isBlank (c : Char) : Bool := c == ' ' || c == '\t'

/-- A blank or a line break. -/
def isGap (c : Char) : Bool := isBlank c || isBreak c

/-- Letters, digits, the hyphen and the underscore: the characters of anchors and tag handles. -/
def isWordChar (c : Char) : Bool := c.isAlphanum || c == '-' || c == '_'

/-- The mark that may stand at the very beginning of a text. -/
def byteOrderMark : Char := '\ufeff'

/-- **The characters that a text may hold**: no controls but tab and the line breaks, and not the
last two code points of the basic plane. -/
def isAllowed (c : Char) : Bool :=
  let n := c.toNat
  n == 0x09 || n == 0x0A || n == 0x0D || (0x20 ≤ n && n ≤ 0x7E) || n == 0x85 ||
    (0xA0 ≤ n && n ≤ 0xD7FF) || (0xE000 ≤ n && n ≤ 0xFFFD) || 0x10000 ≤ n

/-- The text with a line feed for every carriage return, pair of carriage return and line feed,
and next-line control. -/
def plainBreaks : List Char → List Char
  | [] => []
  | '\r' :: '\n' :: rest => '\n' :: plainBreaks rest
  | c :: rest => (if c == '\r' || c == '\u0085' then '\n' else c) :: plainBreaks rest

/-- Where a character stands. -/
structure Position where
  index : Nat := 0
  line : Nat := 0
  column : Nat := 0
  deriving DecidableEq, Repr

/-- The position after a character. -/
def Position.step (p : Position) (c : Char) : Position :=
  if isBreak c then ⟨p.index + 1, p.line + 1, 0⟩ else ⟨p.index + 1, p.line, p.column + 1⟩

/-- **What is left of a text**, and where it begins. -/
structure Cursor where
  rest : List Char
  here : Position := {}

namespace Cursor

/-- The first character. -/
def head? (c : Cursor) : Option Char := c.rest.head?

/-- The character `n` places on. -/
def peek? (c : Cursor) (n : Nat) : Option Char := c.rest[n]?

/-- Past the first character. -/
def next (c : Cursor) : Cursor :=
  match c.rest with
  | [] => c
  | x :: xs => ⟨xs, c.here.step x⟩

/-- Past the first `n` characters. -/
def skip (c : Cursor) : Nat → Cursor
  | 0 => c
  | n + 1 => c.next.skip n

/-- The longest run of characters that pass the test, and the cursor after it. -/
def span (p : Char → Bool) (c : Cursor) : List Char × Cursor :=
  let run := c.rest.takeWhile p
  (run, c.skip run.length)

/-- Past the longest run of characters that pass the test. -/
def skipWhile (p : Char → Bool) (c : Cursor) : Cursor := (c.span p).2

/-- Does a gap stand `n` places on, or is the text at its end there? -/
def gapAt (c : Cursor) (n : Nat) : Bool :=
  match c.peek? n with
  | none => true
  | some x => isGap x

/-- Is the text at its end or at a line break? -/
def atLineEnd (c : Cursor) : Bool :=
  match c.head? with
  | none => true
  | some x => isBreak x

/-- Do three times the character and then a gap stand at the beginning of a line? -/
def atTriple (c : Cursor) (x : Char) : Bool :=
  c.here.column == 0 && c.peek? 0 == some x && c.peek? 1 == some x && c.peek? 2 == some x &&
    c.gapAt 3

/-- Does a line that bounds a document begin here? -/
def atDocumentMark (c : Cursor) : Bool := c.atTriple '-' || c.atTriple '.'

end Cursor

end WorkflowPolicy.Yaml
