import WorkflowPolicy.Reading.Source
import WorkflowPolicy.Yaml.Document
import WorkflowPolicy.Yaml.Plain

/-!
# Reading YAML documents

A `Place` is a node of a document together with the way to it and the number of levels that may
still be opened below it. The functions on places read values of a given type, and `fields`
are the places of a record.

**Faults.** A fault gets the place at which a value was asked for, unless an inner value has given
it a place. Faults that concern a record as a whole, such as a field that occurs twice, are thrown
without a place and get that of the record.

**Limits.** Collections may be nested `maxDepth` deep, and all aliases together may be followed
`aliasFactor` times as often as nodes begin and end in the document; an alias counts every time it
is met, so a document of nested aliases is not expanded without a bound.
-/

namespace WorkflowPolicy.Reading

open Yaml (Node Document Scalar Meaning Value)

/-- Reading from a document; the state is the number of aliases that have been followed. -/
abbrev Read := ReaderT Document (StateT Nat (Except Fault))

/-- How deep collections may be nested. -/
def maxDepth : Nat := 128

/-- How often aliases may be followed, per beginning or end of a node. -/
def aliasFactor : Nat := 100

/-- Throws the fault of a cause, without a place. -/
def refuse {α : Type} (cause : Cause) : Read α := throw ⟨cause, none⟩

/-- **A node and where it stands.** -/
structure Place where
  node : Node Nat
  path : Path := .root
  /-- How many levels of collections may be opened from here. -/
  room : Nat := maxDepth

namespace Place

variable {α σ : Type}

/-- The place of the node that an alias stands for; other nodes stand for themselves. -/
def follow (p : Place) : Read Place :=
  match p.node with
  | .alias n => do
    let document ← read
    let count ← get
    set (count + 1)
    if document.size * aliasFactor < count + 1 then refuse .tooManyAliases
    else return { p with node := (document.target? n).getD p.node }
  | _ => return p

/-- Faults without a place get this one. -/
def locate (p : Place) (action : Read α) : Read α :=
  tryCatch action fun fault => throw (fault.located p.path)

/-- What a scalar is, or the fault that its tag does not fit. -/
def meaning (s : Scalar) (tagSeen : Bool) : Read Meaning :=
  match s.meaning tagSeen with
  | .ok m => return m
  | .error wanted => refuse (.wrongValue (.text s.text) wanted)

/-- The meaning of a scalar as what was found. -/
def foundMeaning (s : Scalar) : Meaning → Found
  | .null => .null
  | .bool b => .bool b
  | .int n => .int n
  | .wide n => .wide n
  | .real x => .real x
  | .text => .text s.text

/-- Refuses the node for what it is. -/
def unexpected (node : Node Nat) (wanted : String) : Read α :=
  match node with
  | .scalar _ s => do refuse (.wrongType (foundMeaning s (← meaning s false)) wanted)
  | .sequence .. => refuse (.wrongType .sequence wanted)
  | _ => refuse (.wrongType .mapping wanted)

/-- A value that is left out. -/
def isLeftOut (s : Scalar) : Bool := s.style == .plain && s.text.isEmpty

/-- The place one level further down. -/
def enter (p : Place) : Read Place :=
  match p.room with
  | 0 => refuse .tooDeep
  | room + 1 => return { p with room }

/-- The places of the items of a sequence, each with its index in the path. -/
def itemPlaces (p : Place) (items : List (Node Nat)) : List Place :=
  items.zipIdx.map fun e => { p with node := e.1, path := .item p.path e.2 }

/-- The places of an entry: the key's is that of the mapping, the value's is named by the key. -/
def entryPlace (p : Place) (entry : Node Nat × Node Nat) : Place × Place :=
  let path :=
    match entry.1 with
    | .scalar _ s => .field p.path s.text
    | _ => .unnamed p.path
  ({ p with node := entry.1 }, { p with node := entry.2, path })

/-- The items of a sequence; what is left out has none. -/
def itemsOf (wanted : String) (p : Place) : Read (List Place) :=
  match p.node with
  | .sequence _ _ items => return (← p.enter).itemPlaces items
  | .scalar _ s => if isLeftOut s then return [] else unexpected p.node wanted
  | _ => unexpected p.node wanted

/-- The entries of a mapping; what is left out has none. -/
def entriesOf (wanted : String) (p : Place) : Read (List (Place × Place)) :=
  match p.node with
  | .mapping _ _ entries => return entries.map (← p.enter).entryPlace
  | .scalar _ s => if isLeftOut s then return [] else unexpected p.node wanted
  | _ => unexpected p.node wanted

/-- The text of a scalar as it is written; `wanted` is what a collection is refused for. -/
def scalarText (wanted : String) (p : Place) : Read String := do
  let p ← p.follow
  p.locate <|
    match p.node with
    | .scalar _ s => return s.text
    | _ => unexpected p.node wanted

/-- **A text.** -/
def text (p : Place) : Read String := p.scalarText "a string"

/-- Is the scalar read as a number? A plain one is, and an indented one that is tagged so. -/
def mayBeNumber (s : Scalar) : Bool :=
  s.style == .plain || (s.style == .literal && s.tag == some (Yaml.coreTag "int"))

/-- A whole number in a range, from the form of its text. -/
def integer (form : List Char → Option Int) (fits : Int → Bool) (wanted : String) (p : Place) :
    Read Int := do
  let p ← p.follow
  p.locate <|
    match p.node with
    | .scalar _ s =>
      match if mayBeNumber s then form s.text.toList else none with
      | some n => if fits n then return n else refuse (.wrongValue (.int n) wanted)
      | none => unexpected p.node wanted
    | _ => unexpected p.node wanted

/-- **A whole number of 64 bits** with a sign. -/
def signed (p : Place) : Read Int := p.integer Yaml.readSigned? (fun _ => true) "i64"

/-- A whole number without a sign below a limit. -/
def unsigned (limit : Nat) (wanted : String) (p : Place) : Read Nat :=
  Int.toNat <$>
    p.integer (fun s => (Yaml.readUnsigned? s).map Int.ofNat) (fun n => n < limit) wanted

/-- **A port number.** -/
def port (p : Place) : Read Net.Port := .ofNat <$> p.unsigned (Nat.pow 2 16) "u16"

/-- **A value or nothing**: null and what is left out are nothing. -/
def option (value : Place → Read α) (p : Place) : Read (Option α) := do
  let p ← p.follow
  match p.node with
  | .scalar _ s =>
    -- only what is written without quotes can be nothing
    if s.style != .plain then some <$> value p
    else
      match s.tag with
      | some tag =>
        if tag == Yaml.coreTag "null" then
          if Yaml.isNull s.text then return none
          else refuse (.wrongValue (.text s.text) "null")
        else some <$> value p
      | none => if s.text.isEmpty || Yaml.isNull s.text then return none else some <$> value p
  | _ => some <$> value p

/-- **The values of a sequence.** -/
def items (value : Place → Read α) (p : Place) : Read (List α) := do
  let p ← p.follow
  p.locate do (← p.itemsOf "a sequence").mapM value

/-- **The values of a mapping from texts**; of two with one key the later counts. -/
def table (value : Place → Read α) (p : Place) : Read (Table α) := do
  let p ← p.follow
  p.locate do
    let entries ← (← p.entriesOf "a map").mapM fun (key, place) => do
      let name ← key.text
      return (name, ← value place)
    return .ofList entries

/-- The tag of a node of a collection. -/
def tagOf : Node Nat → Option String
  | .scalar _ s => s.tag
  | .sequence _ tag _ | .mapping _ tag _ => tag
  | .alias _ => none

/-- One of the known names, at the place itself. -/
def known (names : List String) (found : String) : Read String :=
  if names.contains found then return found else refuse (.unknownName found names)

/-- Something that says nothing: what goes with a name that is given as a tag. -/
def nothing (p : Place) : Read Unit :=
  match p.node with
  | .scalar _ s =>
    if s.text.isEmpty || Yaml.isNull s.text then return ()
    else do
      let m ← meaning s true
      refuse (.wrongType (foundMeaning s m) "unit")
  | _ => unexpected p.node "unit"

/-- **One of the given names**, as a scalar or as the local tag of a value that says nothing. -/
def name (names : List String) (p : Place) : Read String := do
  let p ← p.follow
  p.locate <|
    match Yaml.localTag? (tagOf p.node), p.node with
    | some tag, _ => do
      let found ← known names tag
      p.nothing
      return found
    | none, .scalar _ s => known names s.text
    | none, node => unexpected node "a YAML tag starting with '!'"

/-! ### Records -/

/-- The fields of a record from its entries, in their order. A field that occurs twice is refused
before its second value is read; the entries that are no fields are left to `other`. -/
def fieldsOf {β : Type} (fields : List (Field Read Place σ)) (other : String → Place → Read β) :
    List (Place × Place) → List String → σ → List β → Read (List String × σ × List β)
  | [], seen, draft, others => return (seen, draft, others.reverse)
  | (key, place) :: rest, seen, draft, others => do
    let name ← key.scalarText "field identifier"
    match fields.find? (·.answers name) with
    | some field =>
      if seen.contains field.name then refuse (.repeatedField field.name)
      else
        let change ← field.read place
        fieldsOf fields other rest (field.name :: seen) (change draft) others
    | none =>
      -- an entry that is no field may repeat
      let more ← other name place
      fieldsOf fields other rest seen draft (more :: others)

/-- Refuses a record without one of its needed fields. -/
def missing {m : Type → Type} {ν : Type} (fields : List (Field m ν σ)) (seen : List String) :
    Option Cause :=
  (fields.find? fun f => f.required && !seen.contains f.name).map fun f => .missingField f.name

/-- **A record** with the given fields; entries that are no fields are passed over. -/
def record (title : String) (fields : List (Field Read Place σ)) (draft : σ) (p : Place) :
    Read σ := do
  let p ← p.follow
  p.locate do
    let entries ← p.entriesOf ("struct " ++ title)
    let (seen, draft, _) ← fieldsOf fields (fun _ _ => return ()) entries [] draft []
    match missing fields seen with
    | some cause => refuse cause
    | none => return draft

/-! ### Values of any type -/

/-- How values of no given type are taken. -/
structure Latitude where
  /-- What a value that is refused should have been. -/
  wanted : String
  /-- Are local tags kept? Otherwise they are refused. -/
  keepsTags : Bool
  /-- May a key occur twice? -/
  allowsRepeats : Bool

/-- Values of any type, with their tags. -/
def Latitude.any : Latitude := ⟨"any YAML value", true, false⟩

/-- Values that are put aside and given a type later. -/
def Latitude.aside : Latitude := ⟨"any value", false, true⟩

/-- A scalar as a value. -/
def scalarValue (wanted : String) (s : Scalar) (tagSeen : Bool) : Read Value := do
  match ← meaning s tagSeen with
  | .null => return .null
  | .bool b => return .bool b
  | .int n => return .number (.int n)
  | .wide n => refuse (.wrongType (.wide n) wanted)
  | .real x => return .number (.real x)
  | .text => return .text s.text

/-- The entries of a mapping with arbitrary keys. -/
def valueEntries (latitude : Latitude) (value : Place → Read Value) :
    List (Place × Place) → List (Value × Value) → Read (List (Value × Value))
  | [], done => return done.reverse
  | (key, place) :: rest, done => do
    let key ← value key
    if !latitude.allowsRepeats && done.any (fun e => key.same e.1) then refuse (.repeatedKey key)
    else
      let found ← value place
      valueEntries latitude value rest ((key, found) :: done)

/-- A value whose tag has been dealt with; `value` reads what it contains. -/
def untaggedValue (latitude : Latitude) (value : Place → Read Value) (tagSeen : Bool)
    (p : Place) : Read Value :=
  match p.node with
  | .scalar _ s => scalarValue latitude.wanted s tagSeen
  | .sequence .. => do
    return .sequence (← (← p.itemsOf latitude.wanted).mapM value)
  | _ => do
    return .mapping (← valueEntries latitude value (← p.entriesOf latitude.wanted) [])

/-- A value of any type, by recursion on a bound for its depth. -/
def valueWithin (latitude : Latitude) : Nat → Place → Read Value
  | 0, _ => refuse .tooDeep
  | depth + 1, p => do
    let p ← p.follow
    p.locate <|
      match Yaml.localTag? (tagOf p.node) with
      | none => untaggedValue latitude (valueWithin latitude depth) false p
      | some tag =>
        if latitude.keepsTags then
          .tagged tag <$> untaggedValue latitude (valueWithin latitude depth) true p
        else refuse .tagRefused

/-- **A value of any type.** -/
def value (latitude : Latitude) (p : Place) : Read Value := p.valueWithin latitude (p.room + 1)

/-- **A scalar as a text**: numbers and truth values are written out, and nothing is the empty
text. -/
def scalar (p : Place) : Read String := do
  match ← p.option (value .any) with
  | none | some .null => return ""
  | some (.text s) => return s
  | some (.number n) => return Value.numberText n
  | some (.bool b) => return if b then "true" else "false"
  | some other => refuse (.notScalar other)

/-! ### Free-form values

A free-form value is kept as JSON, so its keys are texts. Where it stands by itself keys are taken
as they are written; where it is an extension of a record it is put aside first, and its keys have
to mean texts. -/

/-- What the first key of a mapping and the later ones should have been. -/
def keyWanted (isFirst : Bool) : String := if isFirst then "a string key" else "a string"

/-- A scalar as JSON. -/
def scalarJson (s : Scalar) : Read Json := do
  match ← meaning s false with
  | .null => return .null
  | .bool b => return .bool b
  | .int n => return .int n
  | .wide _ => refuse .numberTooLarge
  | .real x => return .real x
  | .text => return .string s.text

/-- JSON, by recursion on a bound for its depth. -/
def jsonWithin : Nat → Place → Read Json
  | 0, _ => refuse .tooDeep
  | depth + 1, p => do
    let wanted := "any valid JSON value"
    let p ← p.follow
    p.locate <|
      if (Yaml.localTag? (tagOf p.node)).isSome then refuse (.wrongType .tagged wanted)
      else
        match p.node with
        | .scalar _ s => scalarJson s
        | .sequence .. => do
          return .array (← (← p.itemsOf wanted).mapM (jsonWithin depth))
        | _ => do
          let members ← (← p.entriesOf wanted).zipIdx.mapM fun ((key, place), i) => do
            let name ← key.scalarText (keyWanted (i == 0))
            return (name, ← jsonWithin depth place)
          return .dictionary (.ofList members)

/-- **A free-form value.** -/
def json (p : Place) : Read Json := p.jsonWithin (p.room + 1)

/-- The value as what was found. -/
def foundValue : Value → Found
  | .null => .null
  | .bool b => .bool b
  | .number (.int n) => .int n
  | .number (.real x) => .real x
  | .text s => .text s
  | .sequence _ => .sequence
  | .mapping _ => .mapping
  | .tagged .. => .tagged

mutual
/-- A value that was put aside as JSON. -/
def jsonOf : Value → Read Json
  | .null => return .null
  | .bool b => return .bool b
  | .number (.int n) => return .int n
  | .number (.real x) => return .real x
  | .text s => return .string s
  | .sequence items => return .array (← jsonItems items)
  | .mapping entries => return .dictionary (.ofList (← jsonMembers true entries))
  | .tagged _ value => jsonOf value

/-- Items as JSON. -/
def jsonItems : List Value → Read (List Json)
  | [] => return []
  | item :: rest => return (← jsonOf item) :: (← jsonItems rest)

/-- Entries as JSON; every key has to be a text. -/
def jsonMembers (isFirst : Bool) : List (Value × Value) → Read (List (String × Json))
  | [] => return []
  | (.text name, value) :: rest =>
    return (name, ← jsonOf value) :: (← jsonMembers false rest)
  | (key, _) :: _ => refuse (.wrongType (foundValue key) (keyWanted isFirst))
end

/-- **A record with extensions**: the entries that are no fields are kept. -/
def openRecord (title : String) (fields : List (Field Read Place σ)) (draft : σ) (p : Place) :
    Read (σ × Table Json) := do
  let p ← p.follow
  p.locate do
    let entries ← p.entriesOf ("struct " ++ title)
    let aside := fun name (place : Place) => return (name, ← place.value .aside)
    let (_, draft, others) ← fieldsOf fields aside entries [] draft []
    let extensions ← others.mapM fun (name, value) => return (name, ← jsonOf value)
    return (draft, .ofList extensions)

/-- YAML as a source of values. -/
def source : Source Read Place where
  text := text
  port := port
  name := name
  option := option
  items := items
  table := table
  record := record

end Place

/-- Why a text is refused: it is not well formed, or it has another shape. -/
inductive Refusal where
  | malformed
  | fault (f : Fault)

/-- A refusal in words. Where a text that is not well formed goes wrong, and how, is not told: all
such texts have the same message. -/
def Refusal.message (words : Dialect) : Refusal → String
  | .malformed => "<syntax>"
  | .fault f => f.message words

/-- **A value from a YAML text.** -/
def fromYaml {α : Type} (value : Place → Read α) (text : String) : Except Refusal α :=
  match Document.parse? text with
  | none => .error .malformed
  | some document =>
    match ((value { node := document.root }).run document).run 0 with
    | .ok (a, _) => .ok a
    | .error f => .error (.fault f)

end WorkflowPolicy.Reading
