import WorkflowPolicy.Proofs.Graph.Topological
import WorkflowPolicy.Proofs.Order.Levels

/-!
# Entry points

Which nodes are entry points, and where the edges of a node lead, depends only on the relation of
the graph and not on how its edges are listed (`entryPoints_congr`, `downstream_congr`). So edges
that join nothing, and the order of the edges, do not matter (`joined_append_ignored`).

On a graph without a cycle every node can be reached from an entry point
(`exists_entryPoint_reaches`). From a node that is none an edge leads back, to a node at an earlier
place in the list of `finishOrder`, and so on down to the first place.
-/

namespace WorkflowPolicy

open Relation (ReflTransGen)

namespace Graph

variable {g g' : Graph} {a b : String}

theorem hasIncoming_iff : g.hasIncoming a = true ↔ ∃ b, g.Leads b a := by
  rw [hasIncoming, List.any_eq_true]
  constructor
  · rintro ⟨⟨source, target⟩, he, htarget⟩
    obtain rfl : target = a := beq_iff_eq.mp htarget
    exact ⟨source, he⟩
  · rintro ⟨b, hlead⟩
    exact ⟨⟨b, a⟩, hlead, beq_self_eq_true a⟩

/-- **The entry points are the nodes into which no edge leads.** -/
theorem mem_entryPoints_iff : a ∈ g.entryPoints ↔ a ∈ g.nodes ∧ ∀ b, ¬ g.Leads b a := by
  rw [entryPoints, List.mem_filter, Bool.not_eq_true', ← Bool.not_eq_true, hasIncoming_iff,
    not_exists]

/-- **Every node can be reached from an entry point**, if there is no cycle. -/
theorem exists_entryPoint_reaches (hg : g.WellFormed) (hacyclic : ¬ HasCycle g.Leads)
    (ha : a ∈ g.nodes) : ∃ b ∈ g.entryPoints, ReflTransGen g.Leads b a := by
  have hcheck := (leadsForward_finishOrder_iff hg).mpr hacyclic
  -- The induction is on the place of the node: an edge that leads into it comes from an earlier
  -- place.
  induction hplace : g.finishOrder.idxOf a using Nat.strong_induction_on generalizing a with
  | _ place ih =>
    by_cases hentry : a ∈ g.entryPoints
    · exact ⟨a, hentry, .refl⟩
    · obtain ⟨b, hlead⟩ : ∃ b, g.Leads b a := by
        by_contra hnone
        exact hentry (mem_entryPoints_iff.mpr ⟨ha, not_exists.mp hnone⟩)
      have hb : b ∈ g.nodes := hg.source_mem hlead
      have hearlier : g.finishOrder.idxOf b < place := by
        rw [← hplace]
        exact idxOf_lt_of_leadsForward hcheck ((mem_finishOrder hg).mpr hb)
          ((mem_finishOrder hg).mpr ha) hlead
      obtain ⟨start, hstart, hreach⟩ := ih _ hearlier hb rfl
      exact ⟨start, hstart, hreach.tail hlead⟩

/-! ### The list of the edges does not matter -/

/-- Graphs on the same nodes with the same relation have the same entry points. -/
theorem entryPoints_congr (hnodes : g.nodes = g'.nodes) (hleads : g.Leads = g'.Leads) :
    g.entryPoints = g'.entryPoints := by
  rw [entryPoints, entryPoints, hnodes]
  refine List.filter_congr fun a _ => congrArg (!·) ?_
  rw [Bool.eq_iff_iff, hasIncoming_iff, hasIncoming_iff, hleads]

/-- Graphs with the same relation have the same sets of successors. -/
theorem downstream_congr (hleads : g.Leads = g'.Leads) (a : String) :
    g.downstream a = g'.downstream a := by
  refine ascending_congr fun b => ?_
  rw [mem_successors_iff_leads, mem_successors_iff_leads, hleads]

/-- **An edge that joins nothing**: it leads from a name to itself, or an end of it is no node. -/
def Ignored (nodes : List String) (e : Edge) : Prop :=
  e.source = e.target ∨ e.source ∉ nodes ∨ e.target ∉ nodes

/-- **Edges in another order, with more of those that join nothing**, have the same relation. -/
theorem joined_append_ignored {nodes : List String} {edges edges' ignored : List Edge}
    (hperm : edges'.Perm (edges ++ ignored)) (hignored : ∀ e ∈ ignored, Ignored nodes e) :
    Joined nodes edges' = Joined nodes edges := by
  funext a b
  -- The two relations can differ only at different nodes, and no ignored edge joins these.
  refine propext (and_congr_left ?_)
  rintro ⟨ha, hb, hne⟩
  have hjoins : ¬ Ignored nodes ⟨a, b⟩ := by
    rintro (hloop | hsource | htarget)
    · exact hne hloop
    · exact hsource ha
    · exact htarget hb
  rw [hperm.mem_iff, List.mem_append]
  exact or_iff_left fun hmem => hjoins (hignored _ hmem)

end Graph

/-! ### The graph of a workflow -/

namespace Workflow

open WorkflowPolicy.Graph (Joined Ignored)

theorem pairwise_nodeNames (w : Workflow) : w.nodeNames.Pairwise (· < ·) :=
  pairwise_lt_of_nodup (pairwise_sortTexts _) w.nodup_nodeNames

/-- An entry point is a node into which no edge from another node leads. -/
theorem mem_entryPoints_graph (w : Workflow) {name : String} :
    name ∈ w.graph.entryPoints ↔ name ∈ w.nodes.names ∧
      ∀ e ∈ w.edges, e.target = name → e.source ∈ w.nodes.names → e.source = name := by
  rw [Graph.mem_entryPoints_iff, w.leads_graph]
  constructor
  · rintro ⟨hname, hnone⟩
    have hname := mem_nodeNames.mp hname
    refine ⟨hname, ?_⟩
    rintro ⟨source, _⟩ he rfl hsource
    -- An edge from another node would be one of the graph.
    by_contra hne
    exact hnone source ⟨he, hsource, hname, hne⟩
  · rintro ⟨hname, hself⟩
    refine ⟨mem_nodeNames.mpr hname, ?_⟩
    rintro b ⟨he, hb, -, hne⟩
    exact hne (hself _ he rfl hb)

/-- **Entry points cover a workflow without cycles.**

* They are the ascending list, with none twice, of the nodes into which no edge from another node
  leads.
* If no cycle is reported, every node can be reached from one of them along the edges. So there is
  one as soon as there is a node.
* Neither they nor the sets of successors change when the edges stand in another order and edges
  that join nothing are added. -/
theorem entry_points_cover (w : Workflow) :
    w.graph.entryPoints.Pairwise (· < ·) ∧
    (∀ name, name ∈ w.graph.entryPoints ↔ name ∈ w.nodes.names ∧
      ∀ e ∈ w.edges, e.target = name → e.source ∈ w.nodes.names → e.source = name) ∧
    (w.graph.findCycles = [] →
      (∀ name ∈ w.nodes.names, ∃ start ∈ w.graph.entryPoints,
        ReflTransGen (Joined w.nodes.names w.edges) start name) ∧
      (w.nodes.names ≠ [] → w.graph.entryPoints ≠ [])) ∧
    ∀ edges ignored, edges.Perm (w.edges ++ ignored) →
      (∀ e ∈ ignored, Ignored w.nodes.names e) →
        { w with edges }.graph.entryPoints = w.graph.entryPoints ∧
        ∀ name, { w with edges }.graph.downstream name = w.graph.downstream name := by
  refine ⟨w.pairwise_nodeNames.sublist List.filter_sublist, fun _ => w.mem_entryPoints_graph, ?_,
    ?_⟩
  · intro hnil
    have hacyclic := (Graph.findCycles_eq_nil_iff w.wellFormed_graph).mp hnil
    have hcover : ∀ name ∈ w.nodes.names, ∃ start ∈ w.graph.entryPoints,
        ReflTransGen (Joined w.nodes.names w.edges) start name := by
      intro name hname
      rw [← w.leads_graph]
      exact Graph.exists_entryPoint_reaches w.wellFormed_graph hacyclic (mem_nodeNames.mpr hname)
    refine ⟨hcover, fun hnames => ?_⟩
    -- Any node will do: what it is reached from is an entry point.
    obtain ⟨name, hname⟩ := List.exists_mem_of_ne_nil _ hnames
    obtain ⟨start, hstart, -⟩ := hcover name hname
    exact List.ne_nil_of_mem hstart
  · intro edges ignored hperm hignored
    -- Both are read off the relation, and that is the same.
    have hleads : { w with edges }.graph.Leads = w.graph.Leads := by
      rw [leads_graph, leads_graph]
      exact Graph.joined_append_ignored hperm hignored
    exact ⟨Graph.entryPoints_congr rfl hleads, Graph.downstream_congr hleads⟩

/-- Two nodes that lead to a third one, and a name that is no node. -/
def twoStarts : Workflow where
  name := "starts"
  nodes := .ofList (["b", "c", "a"].map fun name => (name, ⟨name ++ ".ts", .empty⟩))
  edges := [⟨"a", "c"⟩, ⟨"b", "c"⟩, ⟨"ghost", "b"⟩]

/-- The edges are turned round and an edge from a node to itself is added, as is one to the name
that is no node. -/
theorem twoStarts_cover :
    twoStarts.graph.entryPoints = ["a", "b"] ∧
      (∃ start ∈ twoStarts.graph.entryPoints,
        ReflTransGen (Joined twoStarts.nodes.names twoStarts.edges) start "c") ∧
      { twoStarts with edges := [⟨"a", "a"⟩, ⟨"ghost", "b"⟩, ⟨"b", "c"⟩, ⟨"c", "ghost"⟩,
        ⟨"a", "c"⟩] }.graph.entryPoints = ["a", "b"] := by
  have hentry : twoStarts.graph.entryPoints = ["a", "b"] := by decide +kernel
  have hnil : twoStarts.graph.findCycles = [] := by decide +kernel
  obtain ⟨-, -, hcover, hframe⟩ := entry_points_cover twoStarts
  refine ⟨hentry, (hcover hnil).1 "c" (by decide +kernel), ?_⟩
  rw [(hframe _ [⟨"a", "a"⟩, ⟨"c", "ghost"⟩] (by decide) ?_).1, hentry]
  simp only [List.forall_mem_cons, Graph.Ignored]
  decide +kernel

end Workflow

end WorkflowPolicy
