import WorkflowPolicy.Text.Split
import WorkflowPolicy.Workflow.Basic

/-!
# The graph of a workflow

The nodes of a workflow in ascending order and its edges in the order in which they are declared.
`Graph.restrict` leaves out the edges that have an end which is no node, and those from a node to
itself; two edges between the same nodes both stay.

* `Graph.successors` — where the edges of a node lead, one entry for each edge;
* `Graph.entryPoints` — the nodes into which no edge leads;
* `Graph.downstream` — the set of the successors;
* `Graph.describe` — the graph in words.
-/

namespace WorkflowPolicy

/-- **A directed graph** with names for nodes. -/
structure Graph where
  nodes : List String
  edges : List Edge
  deriving DecidableEq, Repr, Inhabited

namespace Graph

/-- Does an edge join two different nodes of the list? -/
def joins (nodes : List String) (e : Edge) : Bool :=
  e.source != e.target && nodes.contains e.source && nodes.contains e.target

/-- The graph on these nodes with those of the edges that join two different ones. -/
def restrict (nodes : List String) (edges : List Edge) : Graph :=
  ⟨nodes, edges.filter (joins nodes)⟩

/-- Is there a node of that name? -/
def contains (g : Graph) (name : String) : Bool := g.nodes.contains name

/-- Where the edges of a node lead, in their order. -/
def successors (g : Graph) (name : String) : List String :=
  (g.edges.filter (·.source == name)).map (·.target)

/-- Does an edge lead into the node? -/
def hasIncoming (g : Graph) (name : String) : Bool := g.edges.any (·.target == name)

/-- **The nodes into which no edge leads**, in the order of the nodes. -/
def entryPoints (g : Graph) : List String := g.nodes.filter fun name => !g.hasIncoming name

/-- The set of the successors of a node, ascending. -/
def downstream (g : Graph) (name : String) : List String := ascending (g.successors name)

/-- A node and its successors in words. -/
def describeNode (g : Graph) (name : String) : String :=
  match g.downstream name with
  | [] => name ++ " -> (end)"
  | targets => name ++ " -> " ++ Text.joined ", " targets

/-- **The graph in words**: its size, and a line for every node. -/
def describe (g : Graph) : String :=
  let size := "Nodes: " ++ toString g.nodes.length ++ ", Edges: " ++ toString g.edges.length
  Text.joined "\n" (size :: g.nodes.map g.describeNode)

@[simp] theorem nodes_restrict (nodes : List String) (edges : List Edge) :
    (restrict nodes edges).nodes = nodes := rfl

@[simp] theorem mem_edges_restrict {nodes : List String} {edges : List Edge} {e : Edge} :
    e ∈ (restrict nodes edges).edges ↔
      e ∈ edges ∧ e.source ≠ e.target ∧ e.source ∈ nodes ∧ e.target ∈ nodes := by
  simp [restrict, joins, and_assoc]

@[simp] theorem mem_successors {g : Graph} {a b : String} :
    b ∈ g.successors a ↔ ⟨a, b⟩ ∈ g.edges := by
  simp only [successors, List.mem_map, List.mem_filter, beq_iff_eq]
  constructor
  · rintro ⟨⟨s, t⟩, ⟨h, rfl⟩, rfl⟩; exact h
  · intro h; exact ⟨⟨a, b⟩, ⟨h, rfl⟩, rfl⟩

end Graph

/-- The graph of a workflow. -/
def Workflow.graph (w : Workflow) : Graph := .restrict w.nodeNames w.edges

/-- Takes steps until there is none, at most as many as the bound allows. -/
def runSteps {σ : Type} (step : σ → Option σ) : Nat → σ → σ
  | 0, s => s
  | bound + 1, s =>
    match step s with
    | some t => runSteps step bound t
    | none => s

end WorkflowPolicy
