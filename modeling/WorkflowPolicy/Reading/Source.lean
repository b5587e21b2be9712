import WorkflowPolicy.Reading.Fault
import WorkflowPolicy.Json.Basic
import WorkflowPolicy.Net.Port

/-!
# What a reader needs of a format

A structure that is written in more than one format is read by one reader over a `Source`: the
format's ways of reading a text, a port number, the name of a case, a value that may be absent, a
list, a map, and a record.

A record is described by its `Field`s. Reading starts from a draft that holds the defaults, and
every field that is present changes the draft.
-/

namespace WorkflowPolicy.Reading

/-- **A field of a record** that is drafted as `σ` and read from the places `ν` of a format. -/
structure Field (m : Type → Type) (ν σ : Type) where
  name : String
  /-- Further names that mean the same field. -/
  aliases : List String := []
  /-- Has the field to be present? -/
  required : Bool := false
  /-- The change that the value at a place makes to the draft. -/
  read : ν → m (σ → σ)

namespace Field

variable {m : Type → Type} {ν σ α : Type}

/-- Does the field go by this name? -/
def answers (f : Field m ν σ) (name : String) : Bool :=
  f.name == name || f.aliases.contains name

/-- A field with a default, from the reader of its value and the way it is set. -/
def optional [Functor m] (name : String) (read : ν → m α) (set : α → σ → σ) : Field m ν σ :=
  { name, read := fun place => set <$> read place }

/-- A field that has to be present. -/
def needed [Functor m] (name : String) (read : ν → m α) (set : α → σ → σ) : Field m ν σ :=
  { name, required := true, read := fun place => set <$> read place }

end Field

/-- **A format as a source of values**: `ν` are the places in a document, `m` is what reading may
do. -/
structure Source (m : Type → Type) (ν : Type) where
  text : ν → m String
  /-- A port number. -/
  port : ν → m Net.Port
  /-- One of the given names. -/
  name : List String → ν → m String
  /-- A value, or `none` for null. -/
  option : {α : Type} → (ν → m α) → ν → m (Option α)
  items : {α : Type} → (ν → m α) → ν → m (List α)
  table : {α : Type} → (ν → m α) → ν → m (Table α)
  /-- The record of the given title, from its fields and the draft with the defaults. -/
  record : {σ : Type} → String → List (Field m ν σ) → σ → ν → m σ

end WorkflowPolicy.Reading
