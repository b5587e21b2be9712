import WorkflowPolicy.Reading.Yaml
import WorkflowPolicy.Json.Read

/-!
# Reading JSON documents

JSON as a source of values. Compared with YAML, texts are only what stands in quotes, nothing is
ever left out, and a record may also be written as an array, its fields in their order; what the
array does not have takes the default. Faults have no place. A quoted text that is none is refused
where it is read, and passed over with a member that is no field.
-/

namespace WorkflowPolicy.Reading

namespace Member

variable {α σ : Type}

/-- Reading from a JSON tree. -/
abbrev Result := Except Fault

/-- Throws the fault of a cause. -/
def refuse {α : Type} (cause : Cause) : Result α := .error ⟨cause, none⟩

/-- A quoted text as a text. -/
def quoted : Json.Quoted → Result String
  | .ok s => return s
  | .error why => refuse (.badEscape why)

/-- Refuses a value for what it is. -/
def unexpected (value : Json.Node) (wanted : String) : Result α :=
  match value with
  | .null => refuse (.wrongType .null wanted)
  | .bool b => refuse (.wrongType (.bool b) wanted)
  | .number (.int n) => refuse (.wrongType (.int n) wanted)
  | .number (.real x) =>
    if x.isFinite then refuse (.wrongType (.real x) wanted) else refuse .numberOverflow
  | .text s => do refuse (.wrongType (.text (← quoted s)) wanted)
  | .array _ => refuse (.wrongType .sequence wanted)
  | .object _ => refuse (.wrongType .mapping wanted)

/-- **A text.** -/
def text : Json.Node → Result String
  | .text s => quoted s
  | value => unexpected value "a string"

/-- **A port number.** -/
def port : Json.Node → Result Net.Port
  | .number (.int n) =>
    if 0 ≤ n ∧ n < Nat.pow 2 16 then return .ofNat n.toNat else refuse (.wrongValue (.int n) "u16")
  | value => unexpected value "u16"

/-- One of the known names. -/
def known (names : List String) (found : String) : Result String :=
  if names.contains found then return found else refuse (.unknownName found names)

/-- **One of the given names**, as a text or as the only key of an object, with null. -/
def name (names : List String) : Json.Node → Result String
  | .text s => do known names (← quoted s)
  | .object ((key, value) :: rest) => do
    let found ← known names (← quoted key)
    match value with
    | .null => if rest.isEmpty then return found else refuse .nameExpected
    | value => unexpected value "unit"
  | _ => refuse .nameExpected

/-- **A value or null.** -/
def option (value : Json.Node → Result α) : Json.Node → Result (Option α)
  | .null => return none
  | other => some <$> value other

/-- **The values of an array.** -/
def items (value : Json.Node → Result α) : Json.Node → Result (List α)
  | .array items => items.mapM value
  | other => unexpected other "a sequence"

/-- **The values of an object**; of two with one key the later counts. -/
def table (value : Json.Node → Result α) : Json.Node → Result (Table α)
  | .object members => do
    let entries ← members.mapM fun (name, member) => return (← quoted name, ← value member)
    return .ofList entries
  | other => unexpected other "a map"

/-- The fields of a record from the members of an object, in their order. -/
def fieldsOf (fields : List (Field Result Json.Node σ)) :
    List (Json.Quoted × Json.Node) → List String → σ → Result (List String × σ)
  | [], seen, draft => return (seen, draft)
  | (name, value) :: rest, seen, draft => do
    let name ← quoted name
    match fields.find? (·.answers name) with
    | some field =>
      if seen.contains field.name then refuse (.repeatedField field.name)
      else
        let change ← field.read value
        fieldsOf fields rest (field.name :: seen) (change draft)
    | none => fieldsOf fields rest seen draft

/-- The fields of a record from the items of an array, by position; `index` counts those that have
been read. -/
def fieldsByPosition (wanted : String) :
    Nat → List (Field Result Json.Node σ) → List Json.Node → σ → Result σ
  | _, [], [], draft => return draft
  | _, [], _ :: _, _ => refuse .tooManyItems
  | index, field :: fields, item :: items, draft => do
    let change ← field.read item
    fieldsByPosition wanted (index + 1) fields items (change draft)
  | index, field :: fields, [], draft =>
    if field.required then refuse (.wrongLength index wanted)
    else fieldsByPosition wanted (index + 1) fields [] draft

/-- The number of elements of a record in words. -/
def sizeText (title : String) (count : Nat) : String :=
  "struct " ++ title ++ " with " ++ toString count ++
    (if count == 1 then " element" else " elements")

/-- **A record** with the given fields. -/
def record (title : String) (fields : List (Field Result Json.Node σ)) (draft : σ) :
    Json.Node → Result σ
  | .object members => do
    let (seen, draft) ← fieldsOf fields members [] draft
    match Place.missing fields seen with
    | some cause => refuse cause
    | none => return draft
  | .array items => fieldsByPosition (sizeText title fields.length) 0 fields items draft
  | other => unexpected other ("struct " ++ title)

/-- JSON as a source of values. -/
def source : Source Result Json.Node where
  text := text
  port := port
  name := name
  option := option
  items := items
  table := table
  record := record

end Member

/-- **A value from a JSON text.** -/
def fromJson {α : Type} (value : Json.Node → Member.Result α) (text : String) :
    Except Refusal α :=
  match Json.Node.parse? text with
  | none => .error .malformed
  | some node =>
    match value node with
    | .ok a => .ok a
    | .error f => .error (.fault f)

-- A bad escape counts only where the text with it is read.
example : (fromJson (Member.record "Label" [.needed "key" Member.text fun v _ => v] "")
    "\x7b\"key\": \"zone\", \"note\": \"\\ud800\"\x7d").toOption = some "zone" := by
  decide +kernel

end WorkflowPolicy.Reading
