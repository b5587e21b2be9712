import WorkflowPolicy.Graph.Basic

/-!
# Finding cycles

A depth-first search with three colours. A node is *white* until the search comes to it, *gray*
while it is on the stack, and *black* when it is closed. An edge to a gray node closes a cycle and
is reported.

**Giving up a root.** A report ends the search from the present root: all nodes on the stack become
black, though some of their edges have not been looked at, and the search goes on from the next
white node. So a later root does not report a cycle through a node that an earlier one has seen.

The search is a machine: `Search` is its state and `Search.step` one of its steps, which takes the
next root, closes the top of the stack, or looks at one edge of it. Every node enters the stack
once, so twice the number of nodes and the number of edges bound the steps.
-/

namespace WorkflowPolicy.Graph

/-- How far the search has come with a node. -/
inductive Color where
  | white
  | gray
  | black
  deriving DecidableEq, Repr, Inhabited

/-- A colouring with one node changed. -/
def recolor (color : String → Color) (name : String) (c : Color) : String → Color :=
  fun other => if other = name then c else color other

/-- A node on the stack and the ends of those of its edges that have not been looked at. -/
structure Frame where
  node : String
  ahead : List String
  deriving DecidableEq, Repr, Inhabited

/-- **The state of the search.** -/
structure Search where
  color : String → Color
  /-- The nodes at which the search begins, those to come. -/
  roots : List String
  /-- The way from the present root to the present node, the latter first. -/
  stack : List Frame
  /-- The edges that have been reported, in their order. -/
  found : List Edge

namespace Search

/-- Before the search all nodes are white. -/
def start (g : Graph) : Search := ⟨fun _ => .white, g.nodes, [], []⟩

/-- The search after a node has been put on the stack. -/
def push (g : Graph) (s : Search) (name : String) : Search :=
  { s with
    color := recolor s.color name .gray
    stack := ⟨name, g.successors name⟩ :: s.stack }

/-- The colouring with all nodes of the stack closed. -/
def closeAll (color : String → Color) (stack : List Frame) : String → Color :=
  stack.foldl (fun color frame => recolor color frame.node .black) color

/-- **One step**; `none` when the search is over. -/
def step (g : Graph) (s : Search) : Option Search :=
  match s.stack with
  | [] =>
    match s.roots with
    | [] => none
    | root :: roots =>
      if s.color root = .white then some (push g { s with roots } root) else some { s with roots }
  | ⟨u, []⟩ :: below => some { s with color := recolor s.color u .black, stack := below }
  | ⟨u, v :: ahead⟩ :: below =>
    match s.color v with
    | .gray =>
      some { s with color := closeAll s.color s.stack, stack := [], found := s.found ++ [⟨u, v⟩] }
    | .white => some (push g { s with stack := ⟨u, ahead⟩ :: below } v)
    | .black => some { s with stack := ⟨u, ahead⟩ :: below }

end Search

/-- The number of steps that a search may take. -/
def searchBound (g : Graph) : Nat := 2 * g.nodes.length + g.edges.length

/-- **The edges that close a cycle**, as the search reports them. -/
def findCycles (g : Graph) : List Edge :=
  (runSteps (Search.step g) g.searchBound (Search.start g)).found

/-- Is no cycle reported? -/
def isAcyclic (g : Graph) : Bool := g.findCycles.isEmpty

/-- A reported edge in words. -/
def cycleText (e : Edge) : String := e.source ++ " → " ++ e.target

end WorkflowPolicy.Graph
