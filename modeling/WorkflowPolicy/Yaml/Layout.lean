import WorkflowPolicy.Yaml.Lexeme.Plain
import WorkflowPolicy.Yaml.Lexeme.Quoted
import WorkflowPolicy.Yaml.Lexeme.Block
import WorkflowPolicy.Yaml.Lexeme.Directive

/-!
# From text to tokens

`Token.scan?` reads a text as a list of tokens. Two things are not said by the characters alone
and are kept in the state of the reader, `Layout`.

**Indentation.** In block style a collection begins where something stands further right than
the collection around it, and ends before the first thing that stands further left. `indent` is
the column of the innermost open collection and `outer` those of the ones around it; opening and
closing write `blockMappingStart`, `blockSequenceStart` and `blockEnd`.

**Simple keys.** Whether a scalar, an alias or a collection in brackets is the key of an entry is
known only at the colon after it. So where a key may begin its spot is noted, one for each level
of brackets, and at the colon `key` is put in at the spot, behind the beginning of a mapping if
one begins with it. A key has to end on its line and within 1024 characters; where only a key may
stand, its colon has to come.
-/

namespace WorkflowPolicy.Yaml

/-- Where a key may have begun. -/
structure KeySpot where
  /-- Nothing else may stand here. -/
  required : Bool
  /-- The number of tokens before it. -/
  token : Nat
  start : Position

/-- How many characters a key may have. -/
def maxKeyLength : Nat := 1024

/-- **The state of the reader** between two tokens. -/
structure Layout where
  cursor : Cursor
  /-- The tokens so far, the last one first. -/
  tokens : List Token := []
  /-- How many they are. -/
  count : Nat := 0
  /-- The column of the innermost open collection in block style, `-1` outside all. -/
  indent : Int := -1
  /-- The columns of the collections around it. -/
  outer : List Int := []
  /-- How many brackets are open. -/
  flow : Nat := 0
  /-- May a key begin here? -/
  keyAllowed : Bool := true
  /-- The spots of possible keys, that of the innermost level first. -/
  spots : List (Option KeySpot) := [none]

namespace Layout

/-- The reader within brackets? -/
def inFlow (s : Layout) : Bool := s.flow != 0

/-- One more token. -/
def push (s : Layout) (t : Token) : Layout :=
  { s with tokens := t :: s.tokens, count := s.count + 1 }

/-- A token before those that were read after the first `n`. -/
def insertAt (s : Layout) (n : Nat) (t : Token) : Layout :=
  { s with tokens := s.tokens.insertIdx (s.count - n) t, count := s.count + 1 }

/-- The reader with another cursor. -/
def moveTo (s : Layout) (c : Cursor) : Layout := { s with cursor := c }

/-! ### Indentation -/

/-- A collection at the given column begins, unless one is open there: its first token comes
after the first `n` tokens. -/
def openAt (s : Layout) (column : Nat) (n : Nat) (t : Token) : Layout :=
  if s.inFlow then s
  else if s.indent < column then
    { s.insertAt n t with indent := column, outer := s.indent :: s.outer }
  else s

/-- The collections right of the column end. -/
def closeTo (column : Int) : Nat → Layout → Layout
  | 0, s => s
  | fuel + 1, s =>
    if s.inFlow then s
    else if column < s.indent then
      closeTo column fuel
        { s.push .blockEnd with indent := s.outer.headD (-1), outer := s.outer.drop 1 }
    else s

/-- The collections right of the column end; there are no more of them than columns. -/
def close (s : Layout) (column : Int) : Layout := closeTo column (s.outer.length + 1) s

/-! ### Simple keys -/

/-- Is the key too old to end here? -/
def KeySpot.stale (k : KeySpot) (here : Position) : Bool :=
  k.start.line < here.line || k.start.index + maxKeyLength < here.index

/-- Spots too old to be keys are forgotten; it is an error if a key is required there. -/
def dropStale (s : Layout) : Option Layout := do
  let spots ← s.spots.mapM fun
    | none => some none
    | some k =>
      if KeySpot.stale k s.cursor.here then if k.required then none else some none
      else some (some k)
  return { s with spots }

/-- The spot of the innermost level is no key after all. -/
def forgetKey (s : Layout) : Option Layout :=
  match s.spots with
  | some k :: rest => if k.required then none else some { s with spots := none :: rest }
  | _ => some s

/-- A key may begin where the cursor stands. -/
def noteKey (s : Layout) : Option Layout :=
  if s.keyAllowed then do
    let here := s.cursor.here
    -- in the column of an open mapping only the next key may stand
    let required := !s.inFlow && s.indent == here.column
    let s ← s.forgetKey
    return { s with spots := some ⟨required, s.count, here⟩ :: s.spots.drop 1 }
  else some s

/-! ### One token after another -/

/-- The blanks, comments and line breaks between two tokens. Outside brackets a line break lets a
key begin, and no tab may stand where a key may. -/
def skipBlanks (flow : Bool) : List Char → Position → Bool → Bool → Cursor × Bool
  | [], here, keyAllowed, _ => (⟨[], here⟩, keyAllowed)
  | c :: cs, here, keyAllowed, comment =>
    if isBreak c then skipBlanks flow cs (here.step c) (keyAllowed || !flow) false
    else if comment then skipBlanks flow cs (here.step c) keyAllowed true
    else if c == ' ' || (c == '\t' && (flow || !keyAllowed)) ||
        (c == byteOrderMark && here.index == 0) then
      skipBlanks flow cs (here.step c) keyAllowed false
    else if c == '#' then skipBlanks flow cs (here.step c) keyAllowed true
    else (⟨c :: cs, here⟩, keyAllowed)

/-- The state at the next token. -/
def toNextToken (s : Layout) : Layout :=
  let (cursor, keyAllowed) :=
    skipBlanks s.inFlow s.cursor.rest s.cursor.here s.keyAllowed false
  { s with cursor, keyAllowed }

/-- A token of `n` characters. -/
def symbol (s : Layout) (n : Nat) (t : Token) : Layout :=
  (s.moveTo (s.cursor.skip n)).push t

/-- The end of all collections, before a directive or a line that bounds a document. -/
def endBlocks (s : Layout) : Option Layout := do
  let s ← (s.close (-1)).forgetKey
  return { s with keyAllowed := false }

/-- An opening bracket or brace. -/
def openFlow (s : Layout) (t : Token) : Option Layout := do
  let s ← s.noteKey
  return { s.symbol 1 t with flow := s.flow + 1, spots := none :: s.spots, keyAllowed := true }

/-- A closing bracket or brace. -/
def closeFlow (s : Layout) (t : Token) : Option Layout := do
  let s ← s.forgetKey
  let s := if s.inFlow then { s with flow := s.flow - 1, spots := s.spots.drop 1 } else s
  return { s.symbol 1 t with keyAllowed := false }

/-- A comma. -/
def comma (s : Layout) : Option Layout := do
  let s ← s.forgetKey
  return { s.symbol 1 .flowEntry with keyAllowed := true }

/-- A collection in block style may begin here, if one may at all. -/
def beginBlock (s : Layout) (t : Token) : Option Layout :=
  if s.inFlow then some s
  else if s.keyAllowed then some (s.openAt s.cursor.here.column s.count t)
  else none

/-- The hyphen before an item. -/
def entry (s : Layout) : Option Layout := do
  let s ← s.beginBlock .blockSequenceStart
  let s ← s.forgetKey
  return { s.symbol 1 .blockEntry with keyAllowed := true }

/-- The question mark before a key. -/
def explicitKey (s : Layout) : Option Layout := do
  let s ← s.beginBlock .blockMappingStart
  let s ← s.forgetKey
  return { s.symbol 1 .key with keyAllowed := !s.inFlow }

/-- **The colon after a key.** If a key may have begun before it, `key` is put in there, and the
beginning of a mapping before it. -/
def colon (s : Layout) : Option Layout :=
  match s.spots with
  | some k :: rest =>
    -- the key has been read already, so `key` goes in before its tokens
    let s := { s.insertAt k.token .key with spots := none :: rest, keyAllowed := false }
    let s := s.openAt k.start.column k.token .blockMappingStart
    some (s.symbol 1 .value)
  | _ => do
    let s ← s.beginBlock .blockMappingStart
    return { s.symbol 1 .value with keyAllowed := !s.inFlow }

/-- An anchor or an alias. -/
def named (s : Layout) (t : String → Token) : Option Layout := do
  let s ← s.noteKey
  let (name, c) ← s.cursor.name
  return { (s.moveTo c).push (t name) with keyAllowed := false }

/-- A tag. -/
def tagged (s : Layout) : Option Layout := do
  let s ← s.noteKey
  let (t, c) ← s.cursor.tag s.inFlow
  return { (s.moveTo c).push t with keyAllowed := false }

/-- A block scalar. -/
def blockScalar (s : Layout) (literal : Bool) : Option Layout := do
  let s ← s.forgetKey
  let (text, c) ← s.cursor.block literal s.indent
  let style := if literal then Style.literal else Style.folded
  return { (s.moveTo c).push (.scalar (String.ofList text) style) with keyAllowed := true }

/-- A quoted scalar. -/
def quotedScalar (s : Layout) (quote : Char) : Option Layout := do
  let s ← s.noteKey
  let (text, c) ← s.cursor.quoted quote
  let style := if quote == '"' then Style.doubleQuoted else Style.singleQuoted
  return { (s.moveTo c).push (.scalar (String.ofList text) style) with keyAllowed := false }

/-- A plain scalar; a key may begin after it if a line break was read. -/
def plainScalar (s : Layout) : Option Layout := do
  let s ← s.noteKey
  let run ← s.cursor.plain s.inFlow s.indent
  return { (s.moveTo run.after).push (.scalar (String.ofList run.text) .plain) with
    keyAllowed := run.broken }

/-- The characters that begin something else than a plain scalar. -/
def isIndicator (c : Char) : Bool :=
  c == '-' || c == '?' || c == ':' || c == ',' || c == '[' || c == ']' || c == '\x7b' ||
    c == '\x7d' || c == '#' || c == '&' || c == '*' || c == '!' || c == '|' || c == '>' ||
    c == '\'' || c == '"' || c == '%' || c == '@' || c == '\x60'

/-- May a plain scalar begin with this character, the next one being `d`? -/
def startsPlain (flow : Bool) (c : Char) (d : Option Char) : Bool :=
  !(isGap c || isIndicator c) || (c == '-' && !(d.any isBlank)) ||
    (!flow && (c == '?' || c == ':') && !(d.all isGap))

/-- **The next token**, at the character where it begins. -/
def token (s : Layout) : Option Layout :=
  let c := s.cursor
  let indicator := s.inFlow || c.gapAt 1
  match c.head? with
  | none => none
  | some x =>
    -- what bounds a document stands at the beginning of a line
    if c.here.column == 0 && x == '%' then do
      let s ← s.endBlocks
      let (t, c) ← s.cursor.directive
      return (s.moveTo c).push t
    else if c.atTriple '-' then return (← s.endBlocks).symbol 3 .documentStart
    else if c.atTriple '.' then return (← s.endBlocks).symbol 3 .documentEnd
    -- within brackets these mean something whatever is next to them
    else if x == '[' then s.openFlow .flowSequenceStart
    else if x == '\x7b' then s.openFlow .flowMappingStart
    else if x == ']' then s.closeFlow .flowSequenceEnd
    else if x == '\x7d' then s.closeFlow .flowMappingEnd
    else if x == ',' then s.comma
    -- elsewhere an indicator is one only before a gap
    else if x == '-' && c.gapAt 1 then s.entry
    else if x == '?' && indicator then s.explicitKey
    else if x == ':' && indicator then s.colon
    else if x == '*' then s.named .alias
    else if x == '&' then s.named .anchor
    else if x == '!' then s.tagged
    else if x == '|' && !s.inFlow then s.blockScalar true
    else if x == '>' && !s.inFlow then s.blockScalar false
    else if x == '\'' || x == '"' then s.quotedScalar x
    else if startsPlain s.inFlow x (c.peek? 1) then s.plainScalar
    else none

/-- All tokens from here on. At the end of the text all collections end. -/
def readAll : Nat → Layout → Option Layout
  | 0, _ => none
  | fuel + 1, s =>
    match s.toNextToken.dropStale with
    | none => none
    | some s =>
      let s := s.close s.cursor.here.column
      if s.cursor.rest.isEmpty then (s.close (-1)).forgetKey
      else
        match s.token with
        | none => none
        | some s => readAll fuel s

end Layout

/-- **The tokens of a text**, or `none` if it is not made of tokens. -/
def Token.scan? (text : String) : Option (List Token) :=
  let chars := text.toList
  if chars.all isAllowed then
    (Layout.readAll (chars.length + 2) { cursor := ⟨plainBreaks chars, {}⟩ }).map
      fun s => s.tokens.reverse
  else none

end WorkflowPolicy.Yaml
