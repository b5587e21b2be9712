import WorkflowPolicy.Decimal.Number
import WorkflowPolicy.Table

/-!
# JSON values

A `Json` value is the tree of a JSON text. The members of an object are a list, in the order in
which they are written, so a text with a repeated key has a value too; `Json.dictionary` makes an
object of a table, with its keys in ascending order.
-/

namespace WorkflowPolicy

/-- The tree of a JSON text. -/
inductive Json where
  | null
  | bool (b : Bool)
  | number (n : Decimal.Number)
  | string (s : String)
  | array (items : List Json)
  | object (members : List (String × Json))
  deriving BEq, Inhabited, Repr

namespace Json

/-- A whole number. -/
def int (n : Int) : Json := .number (.int n)

/-- A floating point number; the values that are not finite have no form in JSON and become
`null`. -/
def real (x : Decimal.Binary64) : Json :=
  if x.isFinite then .number (.real x) else .null

/-- The object of a table, with ascending keys. -/
def dictionary (t : Table Json) : Json := .object t.entries

/-- An array of texts. -/
def strings (texts : List String) : Json := .array (texts.map .string)

/-- An object whose members are texts. -/
def textTable (t : Table String) : Json := .object (t.entries.map fun e => (e.1, .string e.2))

end Json

end WorkflowPolicy
