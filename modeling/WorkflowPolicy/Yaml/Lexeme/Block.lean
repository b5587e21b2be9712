import WorkflowPolicy.Yaml.Lexeme.Gap

/-!
# Block scalars

A scalar after `|` keeps its lines; after `>` a single line break between two lines that do not
begin with a blank counts as a space. The first non-empty line sets the indentation, unless a
digit after the mark does. A sign after the mark says what becomes of the line breaks at the
end: `-` drops them, `+` keeps all, and without a sign one is kept.
-/

namespace WorkflowPolicy.Yaml

/-- What becomes of the line breaks at the end of a block scalar. -/
inductive Chomping where
  | strip
  | clip
  | keep
  deriving DecidableEq

/-- The two things that may follow the mark of a block scalar. -/
structure BlockHeader where
  chomping : Chomping := .clip
  /-- The indentation beyond that of the parent, if it is given. -/
  increment : Option Nat := none

/-- The sign of a header. -/
def chompingMark? (c : Char) : Option Chomping :=
  match c with
  | '+' => some .keep
  | '-' => some .strip
  | _ => none

/-- The digit of a header, which may not be zero. -/
def incrementMark? (c : Char) : Option Nat :=
  if '1' ≤ c ∧ c ≤ '9' then some (c.toNat - '0'.toNat) else none

/-- The header: a sign and a digit in either order, both optional. -/
def readHeader? (c : Cursor) : Option (BlockHeader × Cursor) :=
  let isDigit (x : Option Char) : Bool := x.any Char.isDigit
  match c.head?.bind chompingMark? with
  | some sign =>
    let c := c.next
    if isDigit c.head? then
      (c.head?.bind incrementMark?).map fun n => (⟨sign, some n⟩, c.next)
    else some (⟨sign, none⟩, c)
  | none =>
    if isDigit c.head? then
      (c.head?.bind incrementMark?).map fun n =>
        let c := c.next
        match c.head?.bind chompingMark? with
        | some sign => (⟨sign, some n⟩, c.next)
        | none => (⟨.clip, some n⟩, c)
    else some ({}, c)

/-- Empty lines and the indentation of the first other line: the line breaks, the widest
indentation met, and the cursor after them. Indentation is eaten up to column `limit`, or all of
it while the indentation is not known (`limit = 0`); no tab may stand in it. -/
def readEmptyLines (limit : Nat) :
    List Char → Position → List Char → Nat → Option (List Char × Nat × Cursor)
  | [], here, breaks, widest => some (breaks, widest, ⟨[], here⟩)
  | c :: cs, here, breaks, widest =>
    let inIndent := limit == 0 || here.column < limit
    if c == ' ' && inIndent then
      readEmptyLines limit cs (here.step c) breaks (max widest (here.column + 1))
    else if c == '\t' && inIndent then none
    else if isBreak c then readEmptyLines limit cs (here.step c) (breaks ++ [c]) widest
    else some (breaks, widest, ⟨c :: cs, here⟩)

/-- What lies between two lines: the break of the first one and the empty lines after it. -/
structure LineGap where
  first : List Char := []
  others : List Char := []
  /-- Did the line before begin with a blank? -/
  blankBefore : Bool := false

/-- What stands between two lines of the scalar. -/
def LineGap.text (g : LineGap) (literal blankAfter : Bool) : List Char :=
  if !literal && g.first == ['\n'] && !g.blankBefore && !blankAfter then
    if g.others.isEmpty then [' '] else g.others
  else g.first ++ g.others

/-- The lines at column `indent`, after the text `text` and the gap `gap`. -/
def readLines (literal : Bool) (indent : Nat) :
    Nat → Cursor → List Char → LineGap → Option (List Char × LineGap × Cursor)
  | 0, _, _, _ => none
  | fuel + 1, c, text, gap =>
    if c.here.column == indent && !c.rest.isEmpty then
      let startsBlank := c.head?.any isBlank
      let (line, c) := c.span fun x => !isBreak x
      let text := text ++ gap.text literal startsBlank ++ line
      let first := (c.rest.take 1)
      let c := c.next
      match readEmptyLines indent c.rest c.here [] 0 with
      | none => none
      | some (others, _, c) => readLines literal indent fuel c text ⟨first, others, startsBlank⟩
    else some (text, gap, c)

/-- **A block scalar**, its mark where the cursor stands, below a collection at column
`parent`. -/
def Cursor.block (c : Cursor) (literal : Bool) (parent : Int) :
    Option (List Char × Cursor) := do
  let (header, c) ← readHeader? c.next
  let c := c.skipWhile isBlank
  let c := if c.head? == some '#' then c.skipWhile (fun x => !isBreak x) else c
  if !c.atLineEnd then none
  else
    let c := c.next
    let given : Nat :=
      match header.increment with
      | none => 0
      | some n => if 0 ≤ parent then parent.toNat + n else n
    let (breaks, widest, c) ← readEmptyLines given c.rest c.here [] 0
    let indent := if given == 0 then max (max widest (parent + 1).toNat) 1 else given
    let (text, gap, c) ← readLines literal indent (c.rest.length + 1) c [] ⟨[], breaks, false⟩
    let tail :=
      match header.chomping with
      | .strip => []
      | .clip => gap.first
      | .keep => gap.first ++ gap.others
    return (text ++ tail, c)

end WorkflowPolicy.Yaml
