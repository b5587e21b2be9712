import WorkflowPolicy.Json.Read
import WorkflowPolicy.Yaml.Value

/-!
# What may be wrong with a well-formed document

A document that is well formed may still not have the shape that is asked for. A `Cause` says
what was found and what was wanted, and `Cause.message` is the one place where this is put into
words. Formats differ in how they name null and write floating point numbers; these words are the
`Dialect`.
-/

namespace WorkflowPolicy.Reading

open Decimal (Binary64 Notation)

/-- What was found in place of what was wanted. -/
inductive Found where
  | null
  | bool (b : Bool)
  | int (n : Int)
  /-- A whole number of more than 64 bits. -/
  | wide (n : Int)
  | real (x : Binary64)
  | text (s : String)
  | sequence
  | mapping
  /-- A value with a local tag. -/
  | tagged

/-- The words in which formats differ. -/
structure Dialect where
  null : String
  real : Notation

namespace Dialect

/-- The words for YAML documents. -/
def yaml : Dialect := ⟨"unit value", .positional⟩

/-- The words for JSON documents. -/
def json : Dialect := ⟨"null", .compact⟩

end Dialect

/-- What was found, in words. -/
def Found.describe (words : Dialect) : Found → String
  | .null => words.null
  | .bool b => "boolean \x60" ++ (if b then "true" else "false") ++ "\x60"
  | .int n => "integer \x60" ++ toString n ++ "\x60"
  | .wide n => "integer \x60" ++ toString n ++ "\x60 as " ++ (if 0 ≤ n then "u128" else "i128")
  | .real x => "floating point \x60" ++ words.real.write x ++ "\x60"
  | .text s => "string " ++ Text.quoted s
  | .sequence => "sequence"
  | .mapping => "map"
  | .tagged => "enum"

/-- What is wrong with a document. -/
inductive Cause where
  /-- A value of another type than the wanted one. -/
  | wrongType (found : Found) (wanted : String)
  /-- A value outside the wanted range. -/
  | wrongValue (found : Found) (wanted : String)
  /-- A list with fewer items than the structure has fields. -/
  | wrongLength (length : Nat) (wanted : String)
  | missingField (name : String)
  | repeatedField (name : String)
  /-- A name that is none of the known ones. -/
  | unknownName (found : String) (known : List String)
  /-- A collection or a tagged value where a scalar is wanted. -/
  | notScalar (value : Yaml.Value)
  /-- A key that occurs twice in a mapping with arbitrary keys. -/
  | repeatedKey (key : Yaml.Value)
  /-- A local tag on a value that has to do without. -/
  | tagRefused
  /-- A whole number that JSON has no room for. -/
  | numberTooLarge
  /-- A floating point number that is too large for its format. -/
  | numberOverflow
  /-- Something else where the name of a case is wanted. -/
  | nameExpected
  /-- A list with more items than the structure has fields. -/
  | tooManyItems
  /-- A quoted text with an escape that stands for no character. -/
  | badEscape (why : Json.EscapeFault)
  | tooDeep
  | tooManyAliases

/-- Alternatives in words. -/
def alternatives : List String → String
  | [] => "there are no variants"
  | [a] => "\x60" ++ a ++ "\x60"
  | [a, b] => "\x60" ++ a ++ "\x60 or \x60" ++ b ++ "\x60"
  | many => "one of " ++ ", ".intercalate (many.map fun a => "\x60" ++ a ++ "\x60")

/-- How a repeated key is named. -/
def repeatedKeyText : Yaml.Value → String
  | .null => "with null key"
  | .bool b => "with key \x60" ++ (if b then "true" else "false") ++ "\x60"
  | .number n => "with key " ++ Yaml.Value.numberText n
  | .text s => "with key " ++ Text.quoted s
  | _ => "in YAML map"

/-- **A cause in words.** -/
def Cause.message (words : Dialect) : Cause → String
  | .wrongType found wanted => "invalid type: " ++ found.describe words ++ ", expected " ++ wanted
  | .wrongValue found wanted =>
    "invalid value: " ++ found.describe words ++ ", expected " ++ wanted
  | .wrongLength n wanted => "invalid length " ++ toString n ++ ", expected " ++ wanted
  | .missingField name => "missing field \x60" ++ name ++ "\x60"
  | .repeatedField name => "duplicate field \x60" ++ name ++ "\x60"
  | .unknownName found known =>
    "unknown variant \x60" ++ found ++ "\x60, expected " ++ alternatives known
  | .notScalar value => "expected a scalar value, got " ++ value.describe
  | .repeatedKey key => "duplicate entry " ++ repeatedKeyText key
  | .tagRefused => "untagged and internally tagged enums do not support enum input"
  | .numberTooLarge => "JSON number out of range"
  | .numberOverflow => "number out of range"
  | .nameExpected => "expected value"
  | .tooManyItems => "trailing characters"
  | .badEscape .lone => "lone leading surrogate in hex escape"
  | .badEscape .cut => "unexpected end of hex escape"
  | .tooDeep => "recursion limit exceeded"
  | .tooManyAliases => "repetition limit exceeded"

/-- Is the place in the document part of the report? The two limits concern it as a whole. -/
def Cause.hasPlace : Cause → Bool
  | .tooDeep | .tooManyAliases => false
  | _ => true

/-- A way from the root of a document to a node. -/
inductive Path where
  | root
  | item (parent : Path) (index : Nat)
  | field (parent : Path) (key : String)
  /-- The value of an entry whose key is no scalar. -/
  | unnamed (parent : Path)

mutual
/-- A path as it stands before a message. -/
def Path.text : Path → String
  | .root => "."
  | .item parent index => parent.text ++ "[" ++ toString index ++ "]"
  | .field parent key => parent.stem ++ key
  | .unnamed parent => parent.stem ++ "?"

/-- A path as it stands before a further key. -/
def Path.stem : Path → String
  | .root => ""
  | .item parent index => parent.text ++ "[" ++ toString index ++ "]."
  | .field parent key => parent.stem ++ key ++ "."
  | .unnamed parent => parent.stem ++ "?."
end

/-- **What is wrong and where.** -/
structure Fault where
  cause : Cause
  path : Option Path := none

namespace Fault

/-- The fault at the given place, unless its place is known. -/
def located (f : Fault) (path : Path) : Fault :=
  if f.path.isNone && f.cause.hasPlace then { f with path := some path } else f

/-- A fault in words; a place at the root goes without saying. -/
def message (words : Dialect) (f : Fault) : String :=
  let text := f.cause.message words
  match f.path with
  | none => text
  | some path => if path.text == "." then text else path.text ++ ": " ++ text

end Fault

end WorkflowPolicy.Reading
