/-!
# TOML values

The values of a TOML text, and the rules for what may be added to a table once it is there.

A table remembers how it has come about, since this decides what may still be said of it:

* a table that a header has *opened* is open to the entries below that header only;
* a table that is there only because a header has passed *through* it may be opened later, once;
* a table that the first parts of a *dotted* key have made takes further dotted keys;
* an *inline* table is complete.

A list of tables is written with headers in double brackets, one for each table; headers that pass
through the list mean its last table.
-/

namespace WorkflowPolicy.Toml

/-- How a table has come about. -/
inductive Origin where
  | opened
  | through
  | dotted
  | inline
  deriving DecidableEq, Repr

/-- **A value.** Of numbers, truth values, dates and times nothing is kept. -/
inductive Value where
  | text (s : String)
  | scalar
  | array (items : List Value)
  | table (origin : Origin) (entries : List (String × Value))
  /-- A list of tables: all but the last, and how the last has come about and what it holds. -/
  | tables (earlier : List Value) (origin : Origin) (entries : List (String × Value))
  deriving Repr, Inhabited

/-- The entries of a table. -/
abbrev Entries := List (String × Value)

/-- The entries with another value for a key that is there. -/
def replaceEntry (key : String) (value : Value) (entries : Entries) : Entries :=
  entries.map fun e => if e.1 = key then (key, value) else e

/-- A change of a table, which may be refused. -/
abbrev Change := Origin → Entries → Option Entries

/-- **A change of the table to which a header leads.** Tables that are not there come about on the
way. -/
def atHeader (change : Change) : List String → Change
  | [], origin, entries => change origin entries
  | key :: path, _, entries =>
    match entries.lookup key with
    | none => do
      let below ← atHeader change path .through []
      return entries ++ [(key, .table .through below)]
    | some (.table .inline _) => none
    | some (.table origin below) => do
      let below ← atHeader change path origin below
      return replaceEntry key (.table origin below) entries
    | some (.tables earlier origin last) => do
      let last ← atHeader change path origin last
      return replaceEntry key (.tables earlier origin last) entries
    | some _ => none

/-- Opens a table: one that is not there, or one that headers have passed through. -/
def openTable (key : String) : Change := fun _ entries =>
  match entries.lookup key with
  | none => some (entries ++ [(key, .table .opened [])])
  | some (.table .through below) => some (replaceEntry key (.table .opened below) entries)
  | some _ => none

/-- Opens one more table of a list. -/
def openNext (key : String) : Change := fun _ entries =>
  match entries.lookup key with
  | none => some (entries ++ [(key, .tables [] .opened [])])
  | some (.tables earlier origin last) =>
    some (replaceEntry key (.tables (earlier ++ [.table origin last]) .opened []) entries)
  | some _ => none

/-- **Adds a value under a dotted key.** The first parts of the key make tables, or lead through
tables that have been made so; the last part is new. `atTop` tells the table in which the key
begins from those to which it leads. -/
def addValue (value : Value) (atTop : Bool) : List String → Change
  | [], _, _ => none
  | [key], origin, entries =>
    if (atTop || origin == .dotted) && (entries.lookup key).isNone then
      some (entries ++ [(key, value)])
    else none
  | key :: path, _, entries =>
    match entries.lookup key with
    | none => do
      let below ← addValue value false path .dotted []
      return entries ++ [(key, .table .dotted below)]
    | some (.table .dotted below) => do
      let below ← addValue value false path .dotted below
      return replaceEntry key (.table .dotted below) entries
    | some (.table .through below) => do
      let below ← addValue value false path .through below
      return replaceEntry key (.table .through below) entries
    | some _ => none

end WorkflowPolicy.Toml
