import WorkflowPolicy.Yaml.Lexeme.Property

/-!
# Directives

A line that begins with `%` before a document. `%YAML` gives the version of the language, `%TAG`
a handle and what it stands for; no other directive is known.
-/

namespace WorkflowPolicy.Yaml

/-- A number of at most nine digits. -/
def Cursor.versionNumber (c : Cursor) : Option (Nat × Cursor) :=
  let (digits, c) := c.span Char.isDigit
  if digits.isEmpty || 9 < digits.length then none
  else some (digits.foldl (fun n d => 10 * n + (d.toNat - '0'.toNat)) 0, c)

/-- The rest of a version directive after its name. -/
def Cursor.versionValue (c : Cursor) : Option (Token × Cursor) := do
  let (major, c) ← (c.skipWhile isBlank).versionNumber
  if c.head? != some '.' then none
  else
    let (minor, c) ← c.next.versionNumber
    return (.version major minor, c)

/-- The rest of a tag directive after its name. -/
def Cursor.handleValue (c : Cursor) : Option (Token × Cursor) := do
  let c := c.skipWhile isBlank
  if c.head? != some '!' then none
  else
    let (handle, c) := c.handle
    if handle.getLast? != some '!' || !(c.head?.any isBlank) then none
    else
      let (stem, c) ← (c.skipWhile isBlank).uri true
      if stem.isEmpty || !c.gapAt 0 then none
      else return (.handle (String.ofList handle) (String.ofList stem), c)

/-- **A directive**, its `%` where the cursor stands, with its line break. -/
def Cursor.directive (c : Cursor) : Option (Token × Cursor) := do
  let (name, c) := c.next.span isWordChar
  if !c.gapAt 0 then none
  else
    let (token, c) ←
      if name == ['Y', 'A', 'M', 'L'] then c.versionValue
      else if name == ['T', 'A', 'G'] then c.handleValue
      else none
    let c := c.skipWhile isBlank
    let c := if c.head? == some '#' then c.skipWhile (fun x => !isBreak x) else c
    if c.atLineEnd then return (token, c.next) else none

end WorkflowPolicy.Yaml
