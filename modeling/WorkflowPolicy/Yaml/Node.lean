import WorkflowPolicy.Yaml.Layout

/-!
# Nodes

The tree of a YAML document: scalars, sequences, mappings, and aliases of nodes that have been
named before. A node keeps how it is written, since what a scalar means is decided by who reads
it: `Scalar` holds the text, the style and the tag.

`Node.parseRoot` reads a node from tokens. Its functions follow the productions of the language,
one for each kind of collection:

* `sequenceItems` — items in block style, after their hyphens;
* `flatItems` — the same where the hyphens stand in the column of the mapping around them, so
  that no token ends the sequence;
* `mappingEntries`, `flowItems`, `flowEntries` — the others.

What is left out where a node may stand is an empty plain scalar. Every function takes a token
before it calls another one again, so their number bounds the depth of the calls.
-/

namespace WorkflowPolicy.Yaml

/-- A scalar as it is written. -/
structure Scalar where
  text : String
  style : Style
  /-- The full tag, if there is one. -/
  tag : Option String := none
  deriving DecidableEq, Repr, Inhabited

/-- The scalar of what is left out. -/
def Scalar.empty : Scalar := ⟨"", .plain, none⟩

/-- **The tree of a document.** An anchor is the name under which a node is used again; names are
texts as the tree is parsed, and numbers once every alias has been found. -/
inductive Node (ν : Type) where
  | scalar (anchor : Option ν) (s : Scalar)
  | sequence (anchor : Option ν) (tag : Option String) (items : List (Node ν))
  | mapping (anchor : Option ν) (tag : Option String) (entries : List (Node ν × Node ν))
  /-- The node that has been given the name. -/
  | alias (name : ν)
  deriving Repr

instance (ν : Type) : Inhabited (Node ν) := ⟨.scalar none .empty⟩

/-- What stands before a node: its anchor and its tag. -/
structure Properties where
  anchor : Option String := none
  tag : Option String := none

/-- The handles of a document and what they stand for. -/
abbrev Handles := List (String × String)

/-- The handles that need not be declared. -/
def standardHandles : Handles := [("!", "!"), ("!!", "tag:yaml.org,2002:")]

namespace Node

/-- An empty plain scalar. -/
def empty {ν : Type} : Node ν := .scalar none .empty

/-- The tag of a handle and a suffix; without a handle the suffix is the tag. -/
def fullTag? (handles : Handles) (handle suffix : String) : Option String :=
  if handle.isEmpty then some suffix else (handles.lookup handle).map (· ++ suffix)

/-- The properties before a node, in either order. -/
def properties? (handles : Handles) : List Token → Option (Properties × List Token)
  | .anchor a :: .tag h s :: rest =>
    (fullTag? handles h s).map fun t => (⟨some a, some t⟩, rest)
  | .tag h s :: .anchor a :: rest =>
    (fullTag? handles h s).map fun t => (⟨some a, some t⟩, rest)
  | .anchor a :: rest => some (⟨some a, none⟩, rest)
  | .tag h s :: rest => (fullTag? handles h s).map fun t => (⟨none, some t⟩, rest)
  | rest => some ({}, rest)

/-- A tag that says nothing is no tag of a scalar. -/
def scalarTag (tag : Option String) : Option String := if tag == some "!" then none else tag

/-- Does the list of tokens begin with one of these? -/
def startsWith (ts : List Token) (which : List Token) : Bool :=
  match ts with
  | [] => false
  | t :: _ => which.contains t

mutual
/-- A node. In block style (`block`) it may be a collection in block style, and as the value of
an entry (`flat`) a sequence whose hyphens stand in the column of the mapping. -/
def parse (handles : Handles) (block flat : Bool) :
    Nat → List Token → Option (Node String × List Token)
  | 0, _ => none
  | _ + 1, .alias name :: rest => some (.alias name, rest)
  | fuel + 1, tokens =>
    match properties? handles tokens with
    | none => none
    | some (p, .blockEntry :: rest) =>
      if flat then
        (flatItems handles fuel (.blockEntry :: rest)).map fun r =>
          (.sequence p.anchor p.tag r.1, r.2)
      else omitted p (.blockEntry :: rest)
    | some (p, .scalar text style :: rest) =>
      some (.scalar p.anchor ⟨text, style, scalarTag p.tag⟩, rest)
    | some (p, .flowSequenceStart :: rest) =>
      (flowItems handles true fuel rest).map fun r => (.sequence p.anchor p.tag r.1, r.2)
    | some (p, .flowMappingStart :: rest) =>
      (flowEntries handles true fuel rest).map fun r => (.mapping p.anchor p.tag r.1, r.2)
    | some (p, .blockSequenceStart :: rest) =>
      if block then
        (sequenceItems handles fuel rest).map fun r => (.sequence p.anchor p.tag r.1, r.2)
      else omitted p (.blockSequenceStart :: rest)
    | some (p, .blockMappingStart :: rest) =>
      if block then
        (mappingEntries handles fuel rest).map fun r => (.mapping p.anchor p.tag r.1, r.2)
      else omitted p (.blockMappingStart :: rest)
    | some (p, rest) => omitted p rest

/-- The empty scalar that properties without a node belong to. -/
def omitted (p : Properties) (rest : List Token) : Option (Node String × List Token) :=
  if p.anchor.isSome || p.tag.isSome then
    some (.scalar p.anchor ⟨"", .plain, p.tag⟩, rest)
  else none

/-- The items of a sequence in block style, up to its end. -/
def sequenceItems (handles : Handles) : Nat → List Token → Option (List (Node String) × List Token)
  | 0, _ => none
  | fuel + 1, .blockEntry :: rest =>
    if startsWith rest [.blockEntry, .blockEnd] then
      (sequenceItems handles fuel rest).map fun r => (empty :: r.1, r.2)
    else
      match parse handles true false fuel rest with
      | none => none
      | some (item, rest) =>
        (sequenceItems handles fuel rest).map fun r => (item :: r.1, r.2)
  | _ + 1, .blockEnd :: rest => some ([], rest)
  | _ + 1, _ => none

/-- The items of a sequence whose end has no token. -/
def flatItems (handles : Handles) : Nat → List Token → Option (List (Node String) × List Token)
  | 0, _ => none
  | fuel + 1, .blockEntry :: rest =>
    if startsWith rest [.blockEntry, .key, .value, .blockEnd] then
      (flatItems handles fuel rest).map fun r => (empty :: r.1, r.2)
    else
      match parse handles true false fuel rest with
      | none => none
      | some (item, rest) => (flatItems handles fuel rest).map fun r => (item :: r.1, r.2)
  | _ + 1, rest => some ([], rest)

/-- The entries of a mapping in block style, up to its end. -/
def mappingEntries (handles : Handles) :
    Nat → List Token → Option (List (Node String × Node String) × List Token)
  | 0, _ => none
  | fuel + 1, .key :: rest =>
    let key :=
      if startsWith rest [.key, .value, .blockEnd] then some (empty, rest)
      else parse handles true true fuel rest
    match key with
    | none => none
    | some (key, rest) =>
      match entryValue handles fuel rest with
      | none => none
      | some (value, rest) =>
        (mappingEntries handles fuel rest).map fun r => ((key, value) :: r.1, r.2)
  | _ + 1, .blockEnd :: rest => some ([], rest)
  | _ + 1, _ => none

/-- The value of an entry in block style; it may be left out with its colon. -/
def entryValue (handles : Handles) : Nat → List Token → Option (Node String × List Token)
  | 0, _ => none
  | fuel + 1, .value :: rest =>
    if startsWith rest [.key, .value, .blockEnd] then some (empty, rest)
    else parse handles true true fuel rest
  | _ + 1, rest => some (empty, rest)

/-- The items of a sequence in flow style, up to its end. Before every item but the first one
stands a comma, and one may stand before the end. -/
def flowItems (handles : Handles) (first : Bool) :
    Nat → List Token → Option (List (Node String) × List Token)
  | 0, _ => none
  | _ + 1, .flowSequenceEnd :: rest => some ([], rest)
  | fuel + 1, tokens =>
    match if first then some tokens else afterComma? tokens with
    | none => none
    | some (.flowSequenceEnd :: rest) => some ([], rest)
    | some (.key :: rest) =>
      match pairKey handles fuel rest with
      | none => none
      | some (key, rest) =>
        match flowValue handles .flowSequenceEnd fuel rest with
        | none => none
        | some (value, rest) =>
          (flowItems handles false fuel rest).map fun r =>
            (.mapping none none [(key, value)] :: r.1, r.2)
    | some rest =>
      match parse handles false false fuel rest with
      | none => none
      | some (item, rest) =>
        (flowItems handles false fuel rest).map fun r => (item :: r.1, r.2)

/-- The key of an entry that is an item of a sequence in flow style. A token that cannot begin a
node is taken with it. -/
def pairKey (handles : Handles) : Nat → List Token → Option (Node String × List Token)
  | 0, _ => none
  | fuel + 1, tokens =>
    if startsWith tokens [.value, .flowEntry, .flowSequenceEnd] then some (empty, tokens.drop 1)
    else parse handles false false fuel tokens

/-- What follows a comma. -/
def afterComma? : List Token → Option (List Token)
  | .flowEntry :: rest => some rest
  | _ => none

/-- The value of an entry in flow style, the collection ending with the token `stop`. -/
def flowValue (handles : Handles) (stop : Token) :
    Nat → List Token → Option (Node String × List Token)
  | 0, _ => none
  | fuel + 1, .value :: rest =>
    if startsWith rest [.flowEntry, stop] then some (empty, rest)
    else parse handles false false fuel rest
  | _ + 1, rest => some (empty, rest)

/-- The entries of a mapping in flow style, up to its end. A node without a colon is a key
without a value. -/
def flowEntries (handles : Handles) (first : Bool) :
    Nat → List Token → Option (List (Node String × Node String) × List Token)
  | 0, _ => none
  | _ + 1, .flowMappingEnd :: rest => some ([], rest)
  | fuel + 1, tokens =>
    match if first then some tokens else afterComma? tokens with
    | none => none
    | some (.flowMappingEnd :: rest) => some ([], rest)
    | some (.key :: rest) =>
      let key :=
        if startsWith rest [.value, .flowEntry, .flowMappingEnd] then some (empty, rest)
        else parse handles false false fuel rest
      match key with
      | none => none
      | some (key, rest) =>
        match flowValue handles .flowMappingEnd fuel rest with
        | none => none
        | some (value, rest) =>
          (flowEntries handles false fuel rest).map fun r => ((key, value) :: r.1, r.2)
    | some rest =>
      match parse handles false false fuel rest with
      | none => none
      | some (key, rest) =>
        (flowEntries handles false fuel rest).map fun r => ((key, empty) :: r.1, r.2)
end

/-- **The node at the head of a list of tokens** and what follows it. -/
def parseRoot (handles : Handles) (tokens : List Token) : Option (Node String × List Token) :=
  parse handles true false (3 * tokens.length + 3) tokens

end Node

end WorkflowPolicy.Yaml
