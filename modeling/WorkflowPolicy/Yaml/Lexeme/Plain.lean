import WorkflowPolicy.Yaml.Lexeme.Gap

/-!
# Plain scalars

A scalar without quotes ends before a colon with a gap after it, before a comment, before a line
that bounds a document, and before a line that is indented less than it has to be. Within
brackets it also ends before a comma, a bracket or a brace; there a colon with one of these or a
question mark right after it is an error.
-/

namespace WorkflowPolicy.Yaml

/-- The commas, brackets and braces of collections in flow style. -/
def isFlowMark (c : Char) : Bool :=
  c == ',' || c == '[' || c == ']' || c == '\x7b' || c == '\x7d'

/-- A plain scalar that has been read. -/
structure PlainRun where
  text : List Char
  after : Cursor
  /-- Was a line break read after the last word? -/
  broken : Bool

/-- The word at the head of a text, up to a gap or to where the scalar ends. -/
def plainWord (flow : Bool) : List Char → Option (List Char)
  | [] => some []
  | c :: cs =>
    let next := cs.head?
    if isGap c then some []
    else if flow && c == ':' && (next.any fun d => isFlowMark d || d == '?') then none
    else if c == ':' && (next.all isGap) then some []
    else if flow && isFlowMark c then some []
    else (plainWord flow cs).map (c :: ·)

/-- Words and gaps from the cursor on, after the text `text` and the gap `gap`. -/
def readPlain (flow : Bool) (least : Nat) : Nat → Cursor → List Char → Gap → Option PlainRun
  | 0, _, _, _ => none
  | fuel + 1, c, text, gap =>
    if c.atDocumentMark || c.head? == some '#' then some ⟨text, c, gap.broken⟩
    else
      match plainWord flow c.rest with
      | none => none
      | some [] => some ⟨text, c, gap.broken⟩
      | some word =>
        let text := text ++ gap.text ++ word
        let c := c.skip word.length
        if !(c.head?.any isGap) then some ⟨text, c, false⟩
        else
          match c.gap (some least) {} with
          | none => none
          | some (gap, c) =>
            if !flow && c.here.column < least then some ⟨text, c, gap.broken⟩
            else readPlain flow least fuel c text gap

/-- **A plain scalar.** In block style its lines have to be indented beyond `indent`. -/
def Cursor.plain (c : Cursor) (flow : Bool) (indent : Int) : Option PlainRun :=
  readPlain flow (indent + 1).toNat (c.rest.length + 1) c [] {}

end WorkflowPolicy.Yaml
