import WorkflowPolicy.Graph.Basic

/-!
# Topological order

An order of the nodes in which every edge leads forward. It is found by a depth-first search that
writes nodes down as it leaves them, each before those that were left earlier.

The search keeps one stack of nodes. The first time that a node is on top, its successors that have
not been seen are put above it, in the order of the edges, the first one on top; the next time it is
taken off and written down. A node may be on the stack more than once; only the first of these
visits counts.

If a node is on a cycle no order exists, and then one of the edges leads backward in the list. So a
second search follows: it takes the nodes in the order of the list and goes against the edges,
through nodes that have not been seen (`Graph.nextBack`). From every node it must find this node and
no other (`Graph.retraces`).
-/

namespace WorkflowPolicy.Graph

/-- **The state of the search.** -/
structure Visit where
  /-- The nodes at which the search begins, those to come. -/
  roots : List String
  stack : List String
  /-- The nodes that have been on top. -/
  seen : List String
  /-- The nodes that have been left, later ones first. -/
  finished : List String
  deriving DecidableEq, Repr, Inhabited

namespace Visit

/-- Before the search. -/
def start (g : Graph) : Visit := ⟨g.nodes, [], [], []⟩

/-- **One step**; `none` when the search is over. -/
def step (g : Graph) (s : Visit) : Option Visit :=
  match s.stack with
  | [] =>
    match s.roots with
    | [] => none
    | root :: roots =>
      if s.seen.contains root then some { s with roots }
      else some { s with roots, stack := [root] }
  | top :: below =>
    if s.seen.contains top then
      let finished := if s.finished.contains top then s.finished else top :: s.finished
      some { s with stack := below, finished }
    else
      let seen := top :: s.seen
      some { s with seen, stack := (g.successors top).filter (!seen.contains ·) ++ s.stack }

end Visit

/-- The number of steps that the search may take. -/
def visitBound (g : Graph) : Nat := 3 * g.nodes.length + g.edges.length

/-- The nodes in the order in which the search leaves them, the last one first. -/
def finishOrder (g : Graph) : List String :=
  (runSteps (Visit.step g) g.visitBound (Visit.start g)).finished

/-! ### Against the edges -/

/-- Where the edges into a node come from, in their order. -/
def predecessors (g : Graph) (name : String) : List String :=
  (g.edges.filter (·.target == name)).map (·.source)

/-- **The next node of a search against the edges**: from the stack down to the first node that has
not been seen, and above what is left its predecessors that have not been seen either. The result
are the nodes seen by then and the new stack; `none` when no node is left. -/
def nextBack (g : Graph) (seen : List String) : List String → Option (List String × List String)
  | [] => none
  | top :: below =>
    if seen.contains top then g.nextBack seen below
    else
      let seen := top :: seen
      some (seen, (g.predecessors top).filter (!seen.contains ·) ++ below)

/-- Does a search against the edges find no second node, from any node of the list on? What it has
found stays seen. -/
def retraces (g : Graph) (seen : List String) : List String → Bool
  | [] => true
  | name :: later =>
    match g.nextBack seen [name] with
    | none => g.retraces seen later
    | some (seen, stack) => (g.nextBack seen stack).isNone && g.retraces seen later

/-- Does an edge lead from a node to itself? -/
def hasLoop (g : Graph) : Bool := g.edges.any fun e => e.source == e.target

/-- **A topological order**, or `none` if there is a cycle. -/
def topologicalOrder (g : Graph) : Option (List String) :=
  if !g.hasLoop && g.retraces [] g.finishOrder then some g.finishOrder else none

end WorkflowPolicy.Graph
