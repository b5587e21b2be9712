import WorkflowPolicy.Yaml.Cursor

/-!
# Gaps within scalars

A scalar that runs over several lines is folded: between two words on one line stand the blanks
that were written, and a line break between them counts as one space. Empty lines in between
count as one line feed each. A `Gap` is a run of blanks and line breaks, sorted into these parts,
and `Gap.text` is what it stands for.
-/

namespace WorkflowPolicy.Yaml

/-- A run of blanks and line breaks. -/
structure Gap where
  /-- The blanks before the first line break. -/
  blanks : List Char := []
  /-- The first line break, if there is one. -/
  first : List Char := []
  /-- The line breaks after the first one. -/
  others : List Char := []
  /-- Does a line break belong to the gap? -/
  broken : Bool := false

/-- What the breaks of a gap stand for: a line feed is a space, or nothing before further breaks;
another break stands for itself. -/
def foldBreaks (first others : List Char) : List Char :=
  match first with
  | '\n' :: _ => if others.isEmpty then [' '] else others
  | _ => first ++ others

/-- **What a gap stands for** between two words. -/
def Gap.text (g : Gap) : List Char := if g.broken then foldBreaks g.first g.others else g.blanks

/-- The gap at the head of a text. Where `least` is a column, no tab may stand before it at the
beginning of a line. -/
def readGap (least : Option Nat) : List Char → Position → Gap → Option (Gap × Cursor)
  | [], here, g => some (g, ⟨[], here⟩)
  | c :: cs, here, g =>
    if isBlank c then
      if g.broken then
        if c == '\t' && (least.any fun column => here.column < column) then none
        else readGap least cs (here.step c) g
      else readGap least cs (here.step c) { g with blanks := g.blanks ++ [c] }
    else if isBreak c then
      if g.broken then readGap least cs (here.step c) { g with others := g.others ++ [c] }
      else readGap least cs (here.step c) { g with first := [c], broken := true }
    else some (g, ⟨c :: cs, here⟩)

/-- The gap where the cursor stands. -/
def Cursor.gap (c : Cursor) (least : Option Nat) (g : Gap) : Option (Gap × Cursor) :=
  readGap least c.rest c.here g

end WorkflowPolicy.Yaml
