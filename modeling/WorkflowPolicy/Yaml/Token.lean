/-!
# Tokens

The tokens of a YAML 1.1 text. The structure of the text is in the tokens alone: a collection in
block style begins and ends with tokens of its own, which the indentation gives rise to, and
`key` and `value` stand before the two parts of every entry of a mapping.
-/

namespace WorkflowPolicy.Yaml

/-- How a scalar is written. -/
inductive Style where
  | plain
  | singleQuoted
  | doubleQuoted
  | literal
  | folded
  deriving DecidableEq, Repr, Inhabited

/-- A token. -/
inductive Token where
  | version (major minor : Nat)
  /-- A handle and what it stands for. -/
  | handle (handle stem : String)
  | documentStart
  | documentEnd
  | blockSequenceStart
  | blockMappingStart
  /-- The end of a collection in block style. -/
  | blockEnd
  | flowSequenceStart
  | flowSequenceEnd
  | flowMappingStart
  | flowMappingEnd
  /-- The hyphen before an item. -/
  | blockEntry
  /-- The comma between items. -/
  | flowEntry
  | key
  | value
  | alias (name : String)
  | anchor (name : String)
  | tag (handle suffix : String)
  | scalar (text : String) (style : Style)
  deriving DecidableEq, Repr

end WorkflowPolicy.Yaml
