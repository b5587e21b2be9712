import WorkflowPolicy.Decimal.Number
import WorkflowPolicy.Text.Quoted

/-!
# Values of documents

A `Value` is a node of a document with its meaning: null, a truth value, a number, a text, a
sequence, a mapping whose keys may be any values, or a value with a local tag. `Value.describe`
writes a value as messages show it.
-/

namespace WorkflowPolicy.Yaml

/-- A node of a document with its meaning. -/
inductive Value where
  | null
  | bool (b : Bool)
  | number (n : Decimal.Number)
  | text (s : String)
  | sequence (items : List Value)
  | mapping (entries : List (Value × Value))
  | tagged (tag : String) (value : Value)
  deriving Inhabited, Repr

namespace Value

/-- A tag with one mark before its name. -/
def tagText (tag : String) : String :=
  match tag.toList with
  | '!' :: c :: rest => "!" ++ String.ofList (c :: rest)
  | _ => "!" ++ tag

mutual
/-- **Are the two values the same?** The entries of a mapping have no order. -/
def same : Value → Value → Bool
  | .null, .null => true
  | .bool a, .bool b => a == b
  | .number a, .number b => a.same b
  | .text a, .text b => a == b
  | .sequence as, .sequence bs => sameItems as bs
  | .mapping as, .mapping bs => as.length == bs.length && sameEntries as bs
  | .tagged s a, .tagged t b => tagText s == tagText t && same a b
  | _, _ => false

/-- Are the items the same one by one? -/
def sameItems : List Value → List Value → Bool
  | [], [] => true
  | a :: as, b :: bs => same a b && sameItems as bs
  | _, _ => false

/-- Does the second mapping have the same value under each key of the first one? -/
def sameEntries : List (Value × Value) → List (Value × Value) → Bool
  | [], _ => true
  | (key, value) :: as, bs =>
    (bs.find? fun e => same key e.1).any (fun e => same value e.2) && sameEntries as bs
end

example : same (.mapping [(.text "a", .null), (.text "b", .bool true)])
    (.mapping [(.text "b", .bool true), (.text "a", .null)]) = true := by decide +kernel

/-- A number as it stands in a block document. -/
def numberText (n : Decimal.Number) : String := n.write Decimal.Notation.block

mutual
/-- **A value as messages show it.** -/
def describe : Value → String
  | .null => "Null"
  | .bool b => "Bool(" ++ (if b then "true" else "false") ++ ")"
  | .number n => "Number(" ++ numberText n ++ ")"
  | .text s => "String(" ++ Text.quoted s ++ ")"
  | .sequence items => "Sequence [" ++ describeItems items ++ "]"
  | .mapping entries => "Mapping \x7b" ++ describeEntries entries ++ "\x7d"
  | .tagged tag value =>
    "TaggedValue \x7b tag: " ++ tagText tag ++ ", value: " ++ describe value ++ " \x7d"

/-- Items with commas between them. -/
def describeItems : List Value → String
  | [] => ""
  | [item] => describe item
  | item :: next :: rest => describe item ++ ", " ++ describeItems (next :: rest)

/-- A key: truth values, numbers and texts without the name of their kind. -/
def describeKey : Value → String
  | .bool b => if b then "true" else "false"
  | .number n => numberText n
  | .text s => Text.quoted s
  | .null => "Null"
  | .sequence items => "Sequence [" ++ describeItems items ++ "]"
  | .mapping entries => "Mapping \x7b" ++ describeEntries entries ++ "\x7d"
  | .tagged tag value =>
    "TaggedValue \x7b tag: " ++ tagText tag ++ ", value: " ++ describe value ++ " \x7d"

/-- Entries with commas between them. -/
def describeEntries : List (Value × Value) → String
  | [] => ""
  | [(key, value)] => describeKey key ++ ": " ++ describe value
  | (key, value) :: next :: rest =>
    describeKey key ++ ": " ++ describe value ++ ", " ++ describeEntries (next :: rest)
end

end Value

end WorkflowPolicy.Yaml
