import WorkflowPolicy.Yaml.Node

/-!
# Documents

A text holds at most one document. `Document.parse?` reads it, and is `none` unless the whole
text is well formed, its aliases included: every alias names a node that has been given the name
before it. A text without a document is read as an empty scalar.

**What an alias stands for.** Every anchor has a number, the count of the different names before
it, and an alias means the last node that was numbered like its name at that place. Where all
names differ this is the node of that name. A name that is given a second time does not add to
the count, so the next new name shares its number. `Document.target?` finds the node.
-/

namespace WorkflowPolicy.Yaml

namespace Node

/-- The names so far with their numbers, later ones first. -/
abbrev Names := List (String × Nat)

/-- The names after an anchor, whose number is the count of the different names before it. -/
def Names.add (names : Names) (anchor : Option String) : Names :=
  match anchor with
  | none => names
  | some a => (a, (names.map Prod.fst).eraseDups.length) :: names

/-- The number of a name. -/
def Names.number? (names : Names) (name : String) : Option Nat := List.lookup name names

mutual
/-- **Names become numbers**, in the order of the text; `none` if an alias comes before its
anchor. -/
def link (names : Names) : Node String → Option (Node Nat × Names)
  | .scalar anchor s =>
    let names := names.add anchor
    some (.scalar (anchor.bind names.number?) s, names)
  | .sequence anchor tag items =>
    let names := names.add anchor
    (linkItems names items).map fun r => (.sequence (anchor.bind names.number?) tag r.1, r.2)
  | .mapping anchor tag entries =>
    let names := names.add anchor
    (linkEntries names entries).map fun r => (.mapping (anchor.bind names.number?) tag r.1, r.2)
  | .alias name => (names.number? name).map fun n => (.alias n, names)

/-- The items of a sequence. -/
def linkItems (names : Names) : List (Node String) → Option (List (Node Nat) × Names)
  | [] => some ([], names)
  | item :: rest =>
    match link names item with
    | none => none
    | some (item, names) => (linkItems names rest).map fun r => (item :: r.1, r.2)

/-- The entries of a mapping. -/
def linkEntries (names : Names) :
    List (Node String × Node String) → Option (List (Node Nat × Node Nat) × Names)
  | [] => some ([], names)
  | (key, value) :: rest =>
    match link names key with
    | none => none
    | some (key, names) =>
      match link names value with
      | none => none
      | some (value, names) => (linkEntries names rest).map fun r => ((key, value) :: r.1, r.2)
end

mutual
/-- The numbered nodes, in the order of the text. -/
def anchored : Node Nat → List (Nat × Node Nat)
  | .scalar none _ => []
  | .scalar (some n) s => [(n, .scalar (some n) s)]
  | .sequence none _ items => anchoredItems items
  | .sequence (some n) tag items => (n, .sequence (some n) tag items) :: anchoredItems items
  | .mapping none _ entries => anchoredEntries entries
  | .mapping (some n) tag entries => (n, .mapping (some n) tag entries) :: anchoredEntries entries
  | .alias _ => []

/-- The numbered nodes among items. -/
def anchoredItems : List (Node Nat) → List (Nat × Node Nat)
  | [] => []
  | item :: rest => anchored item ++ anchoredItems rest

/-- The numbered nodes among entries. -/
def anchoredEntries : List (Node Nat × Node Nat) → List (Nat × Node Nat)
  | [] => []
  | (key, value) :: rest => anchored key ++ anchored value ++ anchoredEntries rest
end

mutual
/-- The number of beginnings and ends of nodes. -/
def size : Node Nat → Nat
  | .scalar _ _ => 1
  | .sequence _ _ items => sizeItems items + 2
  | .mapping _ _ entries => sizeEntries entries + 2
  | .alias _ => 1

/-- The sizes of items. -/
def sizeItems : List (Node Nat) → Nat
  | [] => 0
  | item :: rest => size item + sizeItems rest

/-- The sizes of entries. -/
def sizeEntries : List (Node Nat × Node Nat) → Nat
  | [] => 0
  | (key, value) :: rest => size key + size value + sizeEntries rest
end

end Node

/-- **A document**: its tree and the nodes that have names. -/
structure Document where
  root : Node Nat
  /-- The nodes with an anchor by its number, later ones first. -/
  targets : List (Nat × Node Nat)
  /-- How often nodes begin and end in it. -/
  size : Nat

namespace Document

/-- The document of a tree. -/
def ofRoot (root : Node Nat) : Document := ⟨root, root.anchored.reverse, root.size⟩

/-- The node that an alias of that number stands for. -/
def target? (d : Document) (n : Nat) : Option (Node Nat) := d.targets.lookup n

/-- The directives before a document: at most one version, which has to be a known one, and no
handle twice. The result is the handles and what follows. -/
def directives? (versionSeen : Bool) (handles : Handles) :
    List Token → Option (Handles × List Token)
  | .version major minor :: rest =>
    if versionSeen || major != 1 || (minor != 1 && minor != 2) then none
    else directives? true handles rest
  | .handle h stem :: rest =>
    if (handles.lookup h).isSome then none else directives? versionSeen ((h, stem) :: handles) rest
  | rest => some (handles ++ standardHandles, rest)

/-- A token with which a document begins that is marked as one. -/
def isMark : Token → Bool
  | .version .. | .handle .. | .documentStart => true
  | _ => false

/-- The tree of the first document and what follows it. -/
def first? (tokens : List Token) : Option (Node String × List Token) :=
  match tokens with
  | [] => some (.empty, [])
  | t :: _ =>
    if isMark t then
      match directives? false [] tokens with
      | some (handles, .documentStart :: rest) =>
        match rest with
        | [] => some (.empty, [])
        | t :: _ =>
          -- nothing stands between two marks, so the document is empty
          if isMark t || t == .documentEnd then some (.empty, rest)
          else Node.parseRoot handles rest
      | _ => none
    else Node.parseRoot standardHandles tokens

/-- **The document of a text**, or `none` if the text is not well formed or holds several. -/
def parse? (text : String) : Option Document := do
  let tokens ← Token.scan? text
  let (root, rest) ← first? tokens
  if rest.all (· == .documentEnd) then
    let (root, _) ← root.link []
    return ofRoot root
  else none

end Document

end WorkflowPolicy.Yaml
